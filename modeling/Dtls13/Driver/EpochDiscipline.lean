import Dtls13.Driver.ServerLoop

/-! # Epochs in the server's last receive loop

Which records may contribute what: fragments and ACKs come from the client's handshake
keys, early-data keys give application data only, and a number is acknowledged for the
record it belongs to. The loop tries two keys and uses one set of variables for both,
so that this holds as long as the early-data keys open nothing but application data.
-/

namespace Dtls13

open ByteCodec StateLogic RunSystem List

namespace Contribution

/-- What each kind of record may contribute. -/
def Disciplined : Contribution → Prop
  | .application source _ => source.epoch = 1
  | .fragment source _ => source.epoch = 2
  | .ack source _ => source.epoch = 2
  | .alert source => source.epoch = 2
  | .acknowledged source number => source.epoch = 2 ∧ number = source

instance (c : Contribution) : Decidable c.Disciplined :=
  match c with
  | .application source _ => inferInstanceAs (Decidable (source.epoch = 1))
  | .fragment source _ => inferInstanceAs (Decidable (source.epoch = 2))
  | .ack source _ => inferInstanceAs (Decidable (source.epoch = 2))
  | .alert source => inferInstanceAs (Decidable (source.epoch = 2))
  | .acknowledged source number =>
    inferInstanceAs (Decidable (source.epoch = 2 ∧ number = source))

end Contribution

namespace HandshakeChannel

/-- The step kept the receive keys, and what it contributed meets `q`. -/
structure Uses (q : Contribution → Prop) (io next : HandshakeChannel) : Prop where
  cipher : next.cipher = io.cipher
  early : next.early = io.early
  contributions : ∃ more, next.contributions = io.contributions ++ more ∧ ∀ c ∈ more, q c

section Uses

variable {q : Contribution → Prop}

theorem contributions_trans {io middle next : HandshakeChannel}
    (hfirst : ∃ more, middle.contributions = io.contributions ++ more ∧ ∀ c ∈ more, q c)
    (hsecond : ∃ more, next.contributions = middle.contributions ++ more ∧ ∀ c ∈ more, q c) :
    ∃ more, next.contributions = io.contributions ++ more ∧ ∀ c ∈ more, q c := by
  obtain ⟨first, hfirstLog, hfirstMeets⟩ := hfirst
  obtain ⟨second, hsecondLog, hsecondMeets⟩ := hsecond
  refine ⟨first ++ second, ?_, forall_mem_append.mpr ⟨hfirstMeets, hsecondMeets⟩⟩
  rw [hsecondLog, hfirstLog, append_assoc]

theorem Uses.trans {io middle next : HandshakeChannel} (hfirst : Uses q io middle)
    (hsecond : Uses q middle next) : Uses q io next :=
  ⟨hsecond.cipher.trans hfirst.cipher, hsecond.early.trans hfirst.early,
    contributions_trans hfirst.contributions hsecond.contributions⟩

instance : Std.Refl (Uses q) where
  refl _ := ⟨rfl, rfl, [], (List.append_nil _).symm, nofun⟩

instance : IsTrans HandshakeChannel (Uses q) where
  trans _ _ _ := Uses.trans

/-- A change of anything else. -/
theorem uses_of_eq {io next : HandshakeChannel} (hcipher : next.cipher = io.cipher)
    (hearly : next.early = io.early) (hlog : next.contributions = io.contributions) :
    Uses q io next := ⟨hcipher, hearly, [], by rw [hlog, append_nil], nofun⟩

theorem keeps_onOutbox {α : Type} (m : EStateM Err Outbox α) : Keeps (Uses q) (onOutbox m) := by
  apply keeps_zoom
  intro io o
  exact uses_of_eq rfl rfl rfl

theorem ignoresInput_uses : IgnoresInput (Uses q) :=
  ⟨fun _ _ => uses_of_eq rfl rfl rfl, fun _ _ => uses_of_eq rfl rfl rfl⟩

theorem keeps_setOutgoing (f : SentFlight) : Keeps (Uses q) (setOutgoing f) :=
  keeps_modify fun _ => uses_of_eq rfl rfl rfl

theorem keeps_contribute {contribution : Contribution} (hq : q contribution) :
    Keeps (Uses q) (contribute contribution) :=
  keeps_modify fun _ => ⟨rfl, rfl, [contribution], rfl, by simpa using hq⟩

variable {P : Primitives}

theorem keeps_resend (m : EStateM Err Outbox SentFlight) : Keeps (Uses q) (do
      let sent ← onOutbox m
      setOutgoing sent) := keeps_bind (keeps_onOutbox m) fun sent => keeps_setOutgoing sent

theorem keeps_retransmitOutgoing : Keeps (Uses q) (retransmitOutgoing P) := by
  refine keeps_bind keeps_get fun io => ?_
  cases io.outgoing with
  | none => exact keeps_pure _
  | some f => exact keeps_ite (fun _ => keeps_pure _) fun _ => keeps_resend _

theorem keeps_timedOut (timeoutCount : Nat) : Keeps (Uses q) (timedOut P timeoutCount) := by
  have hcall : Keeps (Uses q) beginCall := keeps_modify fun _ => uses_of_eq rfl rfl rfl
  refine keeps_bind keeps_get fun io => ?_
  cases io.outgoing with
  | none => exact hcall
  | some f =>
    refine keeps_bind (keeps_onOutbox _) fun sent => ?_
    exact keeps_bind (keeps_setOutgoing sent) fun _ => hcall

end Uses

/-! ## Processing a record of the handshake keys -/

variable {P : Primitives}

/-- The record is the one last opened under the handshake keys of epoch 2. -/
def Current (source : RecordNumber) (io : HandshakeChannel) : Prop :=
  ∃ cipher, io.cipher = some cipher ∧ cipher.epoch = 2 ∧ source = ⟨2, cipher.lastOpened⟩

variable {io : HandshakeChannel} {source : RecordNumber} {r : ReceivedRecord} {datagram : Bytes}

theorem Current.epoch (hcurrent : Current source io) : source.epoch = 2 := by
  obtain ⟨cipher, _, _, rfl⟩ := hcurrent
  rfl

theorem Current.of_uses {q : Contribution → Prop}
    {io next : HandshakeChannel} (hcurrent : Current source io) (huses : Uses q io next) :
    Current source next := by
  obtain ⟨cipher, hcipher, hrest⟩ := hcurrent
  exact ⟨cipher, huses.cipher.trans hcipher, hrest⟩

/-- The content types the loop acts on. -/
def Idle (typ : UInt8) : Prop :=
  typ ≠ recordTypeAlert ∧ typ ≠ recordTypeACK ∧ typ ≠ recordTypeHandshake

theorem keeps_processACK (f : SentFlight) (hsource : r.source.epoch = 2) :
    Keeps (Uses Contribution.Disciplined) (processACK P r f) := by
  refine keeps_bind (keeps_ofExcept _) fun numbers => ?_
  refine keeps_bind (keeps_ofExcept _) fun _ => ?_
  refine keeps_bind (keeps_contribute hsource) fun _ => ?_
  refine keeps_bind (keeps_setOutgoing _) fun _ => ?_
  exact keeps_ite (fun _ => keeps_pure _) fun _ => keeps_resend _

/-- The number acknowledged is that of the record being processed. -/
theorem wp_acknowledge (hcurrent : Current source io) :
    wp (acknowledge P source) (fun _ => Uses Contribution.Disciplined io)
      (fun _ => Uses Contribution.Disciplined io) io := by
  obtain ⟨cipher, hcipher, hepoch, hsource⟩ := hcurrent
  have hnumber : (⟨cipher.epoch, cipher.lastOpened⟩ : RecordNumber) = source := by
    rw [hsource, hepoch]
  have hlog : Contribution.Disciplined
      (.acknowledged source ⟨cipher.epoch, cipher.lastOpened⟩) :=
    ⟨by rw [hsource], hnumber⟩
  simp only [acknowledge, wp_bind, wp_get, hcipher]
  cases io.ackCipher with
  | none => exact Std.Refl.refl io
  | some ref =>
    have hkeeps : Keeps (Uses Contribution.Disciplined) (do
        contribute (.acknowledged source ⟨cipher.epoch, cipher.lastOpened⟩)
        let acks ← onOutbox (Outbox.onStore
          (buildACKRecords P [⟨cipher.epoch, cipher.lastOpened⟩] io.mtu ref))
        writeRecords acks) :=
      keeps_bind (keeps_contribute hlog) fun _ =>
        keeps_bind (keeps_onOutbox _) fun _ => keeps_onOutbox _
    exact hkeeps io

theorem wp_processFragments (hcurrent : Current r.source io) :
    wp (processFragments P r) (fun _ => Uses Contribution.Disciplined io)
      (fun _ => Uses Contribution.Disciplined io) io := by
  simp only [processFragments, wp_bind, wp_ofExcept]
  refine ⟨fun fragments _ => ?_, fun _ _ => Std.Refl.refl io⟩
  refine wp_imp (keeps_addFragments ignoresInput_uses
    (fun _ => keeps_contribute hcurrent.epoch) fragments io) ?_
  rintro ⟨delivered, peerRetransmitted⟩ middle hadded
  dsimp only
  rw [wp_ite]
  constructor
  · intro _
    rw [wp_bind]
    exact wp_both (keeps_retransmitOutgoing middle) fun _ hnext => hadded.trans hnext
  · intro _
    rw [wp_bind]
    exact wp_both (wp_acknowledge (hcurrent.of_uses hadded)) fun _ hnext => hadded.trans hnext

/-- A record that is not of the handshake keys is of a type the loop does not act on. -/
def Usable (r : ReceivedRecord) (io : HandshakeChannel) : Prop := Current r.source io ∨ Idle r.typ

theorem wp_processRecord (husable : Usable r io) : wp (processRecord P r)
      (fun delivered next => Uses Contribution.Disciplined io next ∧
        (delivered = [] ∨ Current r.source next))
      (fun _ => Uses Contribution.Disciplined io) io := by
  simp only [processRecord, wp_bind, wp_get, wp_ite, wp_pure]
  rcases husable with hcurrent | ⟨halert, hack, hhandshake⟩
  · refine ⟨fun _ => ?_, fun _ => ⟨fun _ => ?_, fun _ => ⟨fun _ => ?_, fun _ => ?_⟩⟩⟩
    · exact wp_imp (keeps_processAlert (keeps_contribute hcurrent.epoch) io)
        fun _ _ hnext => ⟨hnext, .inl trivial⟩
    · cases io.outgoing with
      | none => exact ⟨Std.Refl.refl io, .inl rfl⟩
      | some f =>
        simp only [wp_bind, wp_pure]
        exact wp_imp (keeps_processACK f hcurrent.epoch io)
          fun _ _ hnext => ⟨hnext, .inl trivial⟩
    · exact wp_imp (wp_processFragments hcurrent)
        fun _ _ hnext => ⟨hnext, .inr (hcurrent.of_uses hnext)⟩
    · exact ⟨Std.Refl.refl io, .inl trivial⟩
  · refine ⟨fun h => absurd h halert, fun _ => ⟨fun h => absurd h hack, fun _ =>
      ⟨fun h => absurd h hhandshake, fun _ => ⟨Std.Refl.refl io, .inl trivial⟩⟩⟩⟩

/-! ## Reading a record -/

/-- The keys of a server in this loop: handshake keys, and perhaps early-data keys. -/
structure Keys (io : HandshakeChannel) : Prop where
  handshake : ∃ cipher, io.cipher = some cipher ∧ cipher.epoch = 2
  early : ∀ cipher, io.early = some cipher → cipher.epoch = 1

theorem Keys.of_uses {q : Contribution → Prop} {io next : HandshakeChannel} (hkeys : Keys io)
    (huses : Uses q io next) : Keys next where
  handshake := by
    rw [huses.cipher]
    exact hkeys.handshake
  early := by
    rw [huses.early]
    exact hkeys.early

/-- Whether the early-data keys open nothing at the front of the datagram, or nothing
that the loop acts on. -/
def earlyDataOnly (P : Primitives) (io : HandshakeChannel) (datagram : Bytes) : Bool :=
  match io.early with
  | none => true
  | some early =>
    match (early.openRecord P datagram).1 with
    | .error _ => true
    | .ok opened => opened.contentType != recordTypeAlert &&
        opened.contentType != recordTypeACK && opened.contentType != recordTypeHandshake

/-- What reading leaves behind, on success and on failure. -/
structure Read (io next : HandshakeChannel) : Prop where
  keys : Keys next
  contributions : ∃ more, next.contributions = io.contributions ++ more ∧ ∀ c ∈ more, c.Disciplined

theorem Read.of_uses {io next : HandshakeChannel} (hkeys : Keys io)
    (huses : Uses Contribution.Disciplined io next) : Read io next :=
  ⟨hkeys.of_uses huses, huses.contributions⟩

theorem Read.uses {io middle next : HandshakeChannel} (hread : Read io middle)
    (huses : Uses Contribution.Disciplined middle next) : Read io next :=
  ⟨hread.keys.of_uses huses, contributions_trans hread.contributions huses.contributions⟩

theorem openRecord_epoch (P : Primitives) (cipher : RecordCipher) (datagram : Bytes) :
    (cipher.openRecord P datagram).2.epoch = cipher.epoch := by
  generalize hopen : cipher.openRecord P datagram = outcome
  rcases outcome with ⟨err | opened, next⟩
  · rcases RecordCipher.openRecord_error hopen with rfl | ⟨_, rfl⟩
    · rfl
    · rfl
  · obtain ⟨record, _, _, _, rfl⟩ := RecordCipher.openRecord_ok hopen
    rfl

/-- What is read under the handshake keys is current, and what is read under the
early-data keys is not acted on. -/
def ReadPost (io : HandshakeChannel) (result : ReadResult) (next : HandshakeChannel) : Prop :=
  Read io next ∧ ∀ r, result = .record r → Usable r next

theorem wp_openWith {early : Bool} {selected : RecordCipher}
    {put : RecordCipher → HandshakeChannel → HandshakeChannel}
    (hearly : early = true → selected.epoch = 1)
    (hread : ∀ next, next.epoch = selected.epoch → Read io (put next io))
    (husable : ∀ next opened, selected.openRecord P datagram = (.ok opened, next) →
      Current ⟨next.epoch, next.lastOpened⟩ (put next io) ∨ Idle opened.contentType) :
    wp (openWith P early selected put datagram) (ReadPost io) (fun _ => Read io) io := by
  have hepoch := openRecord_epoch P selected datagram
  simp only [openWith]
  generalize hopen : selected.openRecord P datagram = outcome at hepoch
  obtain ⟨result, next⟩ := outcome
  have htried := hread next hepoch
  simp only [wp_bind, wp_modify]
  cases result with
  | error err =>
    cases herr : protectedRecordReceiveError err with
    | some fatal =>
      simp only [herr]
      exact htried
    | none =>
      simp only [herr]
      exact ⟨htried, by rintro _ ⟨⟩⟩
  | ok opened =>
    have hkeeps : Keeps (Uses Contribution.Disciplined)
        (takeEarlyData early ⟨next.epoch, next.lastOpened⟩ opened) :=
      keeps_takeEarlyData ignoresInput_uses opened fun h =>
        keeps_contribute (hepoch.trans (hearly h))
    simp only [wp_bind, wp_pure]
    refine wp_mono (hkeeps _) ?_ fun _ _ huses => htried.uses huses
    intro _ last huses
    refine ⟨htried.uses huses, ?_⟩
    rintro r ⟨⟩
    rcases husable next opened hopen with hcurrent | hidle
    · exact .inl (hcurrent.of_uses huses)
    · exact .inr hidle

theorem wp_readProtected {cipher : RecordCipher}
    (hkeys : Keys io) (hcipher : io.cipher = some cipher)
    (honly : earlyDataOnly P io datagram = true) :
    wp (readProtected P cipher datagram) (ReadPost io) (fun _ => Read io) io := by
  have hepoch : cipher.epoch = 2 := by
    obtain ⟨other, hother, hepoch⟩ := hkeys.handshake
    obtain rfl := Option.some.inj (hcipher.symm.trans hother)
    exact hepoch
  simp only [readProtected, wp_bind, wp_get]
  split
  next early hselected =>
    obtain ⟨hearly, _⟩ := Option.filter_eq_some_iff.mp hselected
    refine wp_openWith (fun _ => hkeys.early early hearly) ?_ ?_
    · intro next hnext
      refine ⟨⟨hkeys.handshake, ?_⟩, [], (append_nil _).symm, by rintro _ ⟨⟩⟩
      rintro other ⟨⟩
      exact hnext.trans (hkeys.early early hearly)
    · intro next opened hopen
      simp only [earlyDataOnly, hearly, hopen, Bool.and_eq_true, bne_iff_ne] at honly
      exact .inr ⟨honly.1.1, honly.1.2, honly.2⟩
  next =>
    refine wp_openWith (by rintro ⟨⟩) ?_ ?_
    · intro next hnext
      exact ⟨⟨⟨next, rfl, hnext.trans hepoch⟩, hkeys.early⟩, [], (append_nil _).symm,
        by rintro _ ⟨⟩⟩
    · intro next opened hopen
      have hnext : next.epoch = 2 := by
        have hsame := openRecord_epoch P cipher datagram
        rw [hopen] at hsame
        exact hsame.trans hepoch
      exact .inl ⟨next, rfl, hnext, by rw [hnext]⟩

theorem wp_readRecord (hkeys : Keys io) (honly : earlyDataOnly P io datagram = true) :
    wp (readRecord P datagram) (ReadPost io) (fun _ => Read io) io := by
  obtain ⟨cipher, hcipher, _⟩ := hkeys.handshake
  simp only [readRecord, wp_bind, wp_get, hcipher]
  rw [wp_ite]
  refine ⟨fun _ => ?_, fun _ => wp_readProtected hkeys hcipher honly⟩
  split
  next r consumed _ =>
    have hkeeps : Keeps (Uses Contribution.Disciplined) (readPlainACK P r consumed) := by
      refine keeps_bind (keeps_ofExcept _) fun numbers => ?_
      refine keeps_bind keeps_get fun io => ?_
      split
      · refine keeps_bind (keeps_onOutbox _) fun _ => ?_
        exact keeps_bind (keeps_setOutgoing _) fun _ => keeps_pure _
      · exact keeps_pure _
    have hskipped : wp (readPlainACK P r consumed) (fun result _ => ∀ r, result ≠ .record r)
        (fun _ _ => True) io := by
      simp only [readPlainACK, wp_bind, wp_ofExcept, wp_get]
      refine ⟨fun numbers _ => ?_, fun _ _ => trivial⟩
      split
      · simp only [wp_bind, wp_pure]
        unfold wp
        split
        · rintro _ ⟨⟩
        · trivial
      · rintro _ ⟨⟩
    refine wp_mono (wp_and (hkeeps io) hskipped) ?_ fun _ _ hfail => .of_uses hkeys hfail.1
    rintro result next ⟨huses, hskip⟩
    exact ⟨.of_uses hkeys huses, fun r hr => absurd hr (hskip r)⟩
  next => exact wp_readProtected hkeys hcipher honly

/-- One record: what it contributes, and the record that messages are delivered by. -/
theorem wp_receiveRecord (hkeys : Keys io) (honly : earlyDataOnly P io datagram = true) :
    wp (receiveRecord P datagram)
      (fun received next => Read io next ∧
        ∀ source messages, received.2 = some (source, messages) → Current source next)
      (fun _ => Read io) io := by
  simp only [receiveRecord, wp_bind]
  refine wp_imp (wp_readRecord hkeys honly) ?_
  rintro result middle ⟨hread, husable⟩
  cases result with
  | dropped => exact ⟨hread, by rintro _ _ ⟨⟩⟩
  | skipped consumed => exact ⟨hread, by rintro _ _ ⟨⟩⟩
  | record r =>
    simp only [wp_bind, wp_pure]
    refine wp_mono (wp_processRecord (husable r rfl)) ?_ fun _ _ huses =>
      hread.uses huses
    rintro delivered next ⟨huses, hdelivered⟩
    refine ⟨hread.uses huses, ?_⟩
    rintro source messages hsome
    split_ifs at hsome with hempty
    obtain ⟨rfl, rfl⟩ := Prod.mk.inj (Option.some.inj hsome)
    rcases hdelivered with rfl | hcurrent
    · exact absurd rfl hempty
    · exact hcurrent

end HandshakeChannel

/-! ## The records kept for the last ACK -/

namespace ServerHandshakeState

/-- The step kept the list of the client's records. -/
def SameRecords (s next : ServerHandshakeState) : Prop := next.clientRecords = s.clientRecords

instance : Std.Refl SameRecords where
  refl _ := rfl

instance : IsTrans ServerHandshakeState SameRecords where
  trans _ _ _ hfirst hsecond := Eq.trans hsecond hfirst

variable (hooks : ServerHooks)

theorem keeps_recordMessage (message : CompletedHandshake) :
    Keeps SameRecords (recordMessage message) := keeps_modify fun _ => rfl

theorem keeps_serverClientCertificate (message : CompletedHandshake) :
    Keeps SameRecords (serverClientCertificate hooks message) := by
  refine keeps_bind keeps_get fun s => ?_
  refine keeps_bind (keeps_ofExcept _) fun certMessage => ?_
  refine keeps_bind (keeps_ofExcept _) fun _ => ?_
  cases certMessage.certificates with
  | nil => exact keeps_bind (keeps_recordMessage message) fun _ => keeps_pure _
  | cons first rest =>
    refine keeps_bind (keeps_ofExcept _) fun identity => ?_
    refine keeps_bind (keeps_modify fun _ => rfl) fun _ => ?_
    exact keeps_bind (keeps_recordMessage message) fun _ => keeps_pure _

theorem keeps_serverClientCertificateVerify (message : CompletedHandshake) :
    Keeps SameRecords (serverClientCertificateVerify hooks message) := by
  refine keeps_bind keeps_get fun s => ?_
  refine keeps_ite (fun _ => keeps_throw _) fun _ => ?_
  refine keeps_bind (keeps_ofExcept _) fun cv => ?_
  exact keeps_bind (keeps_ofExcept _) fun _ => keeps_recordMessage message

theorem keeps_serverClientFinished (message : CompletedHandshake) :
    Keeps SameRecords (serverClientFinished hooks message) := by
  refine keeps_bind keeps_get fun s => ?_
  refine keeps_bind (keeps_ofExcept _) fun verify => ?_
  exact keeps_ite (fun _ => keeps_throw _) fun _ => keeps_recordMessage message

theorem keeps_serverMessage (message : CompletedHandshake) :
    Keeps SameRecords (serverMessage hooks message) := by
  refine keeps_bind keeps_get fun s => ?_
  refine keeps_bind (keeps_ofExcept _) fun _ => ?_
  refine keeps_ite (fun _ => ?_) fun _ => keeps_ite (fun _ => ?_) fun _ =>
    keeps_ite (fun _ => ?_) fun _ => keeps_throw _
  · refine keeps_bind (keeps_modify fun _ => rfl) fun _ => ?_
    refine keeps_bind (keeps_serverClientCertificate hooks message) fun _ => ?_
    exact keeps_modify fun _ => rfl
  · refine keeps_bind (keeps_serverClientCertificateVerify hooks message) fun _ => ?_
    exact keeps_modify fun _ => rfl
  · refine keeps_bind (keeps_modify fun _ => rfl) fun _ => ?_
    refine keeps_bind (keeps_ofExcept _) fun _ => ?_
    refine keeps_bind (keeps_serverClientFinished hooks message) fun _ => ?_
    exact keeps_modify fun _ => rfl

theorem keeps_forEach_serverMessage (messages : List CompletedHandshake) :
    Keeps SameRecords (BatchLoop.forEach (serverMessage hooks) messages) := by
  induction messages with
  | nil => exact keeps_pure _
  | cons message rest ih => exact keeps_bind (keeps_serverMessage hooks message) fun _ => ih

theorem wp_serverBatch (messages : List CompletedHandshake) (lastOpened : Nat)
    (s : ServerHandshakeState) : wp (serverBatch hooks messages lastOpened)
      (fun _ next => next.clientRecords = s.clientRecords ++ [⟨2, lastOpened⟩])
      (fun _ next => next.clientRecords = s.clientRecords ++ [⟨2, lastOpened⟩]) s := by
  simp only [serverBatch, wp_bind, wp_modify]
  exact keeps_forEach_serverMessage hooks messages _

end ServerHandshakeState

/-! ## Runs of the loop -/

namespace ServerLoop

variable {P : Primitives} {hooks : ServerHooks}

structure LoopInv (s : ServerLoop) : Prop where
  keys : s.io.Keys
  contributions : ∀ c ∈ s.io.contributions, c.Disciplined
  clientRecords : ∀ number ∈ s.flight.clientRecords,
    Contribution.acknowledged number number ∈ s.io.contributions

/-- A reading step keeps the invariant of the part it works on. -/
theorem LoopInv.of_read {s next : ServerLoop} (hinv : s.LoopInv)
    (hread : HandshakeChannel.Read s.io next.io) (hflight : next.flight = s.flight) :
    next.LoopInv := by
  obtain ⟨more, hlog, hmeets⟩ := hread.contributions
  refine ⟨hread.keys, ?_, fun number hnumber => ?_⟩
  · rw [hlog]
    exact forall_mem_append.mpr ⟨hinv.contributions, hmeets⟩
  · rw [hflight] at hnumber
    rw [hlog]
    exact mem_append_left _ (hinv.clientRecords number hnumber)

variable {s : ServerLoop}

/-- Delivered messages are counted to the record that completed them. -/
theorem LoopInv.deliver {source : RecordNumber}
    {messages : List CompletedHandshake} (hinv : s.LoopInv)
    (hcurrent : HandshakeChannel.Current source s.io) :
    (s.deliver hooks source messages).LoopInv := by
  obtain ⟨cipher, hcipher, _, rfl⟩ := hcurrent
  have hlastOpened : (s.io.cipher.map (·.lastOpened)).getD 0 = cipher.lastOpened := by
    rw [hcipher]
    rfl
  have hlog : ∀ c ∈ s.io.contributions ++
      [.acknowledged ⟨2, cipher.lastOpened⟩ ⟨2, cipher.lastOpened⟩],
      Contribution.Disciplined c := by
    intro c hc
    rcases mem_append.mp hc with hc | hc
    · exact hinv.contributions c hc
    · obtain rfl := mem_singleton.mp hc
      exact ⟨rfl, rfl⟩
  have hrecords : ∀ next : ServerHandshakeState,
      next.clientRecords = s.flight.clientRecords ++ [⟨2, cipher.lastOpened⟩] →
      ∀ number ∈ next.clientRecords, Contribution.acknowledged number number ∈
        s.io.contributions ++ [.acknowledged ⟨2, cipher.lastOpened⟩ ⟨2, cipher.lastOpened⟩] := by
    intro next hnext number hnumber
    rw [hnext] at hnumber
    rcases mem_append.mp hnumber with hnumber | hnumber
    · exact mem_append_left _ (hinv.clientRecords number hnumber)
    · obtain rfl := mem_singleton.mp hnumber
      exact mem_append_right _ (mem_singleton_self _)
  unfold ServerLoop.deliver
  rw [hlastOpened]
  apply handle_of_wp
  refine wp_mono (ServerHandshakeState.wp_serverBatch hooks messages cipher.lastOpened s.flight)
    ?_ ?_
  · intro _ next hnext
    exact ⟨⟨hinv.keys.handshake, hinv.keys.early⟩, hlog, hrecords next hnext⟩
  · intro _ next hnext
    exact ⟨⟨hinv.keys.handshake, hinv.keys.early⟩, hlog, hrecords next hnext⟩

/-- The early-data keys open nothing at this step that the loop acts on. -/
def earlyDataOnly (P : Primitives) (s : ServerLoop) : Event → Bool
  | .read => s.io.earlyDataOnly P s.unread
  | _ => true

theorem LoopInv.readNext (hinv : s.LoopInv)
    (honly : s.io.earlyDataOnly P s.unread = true) : (s.readNext P hooks).LoopInv := by
  unfold ServerLoop.readNext
  apply handle_of_wp
  refine wp_mono (HandshakeChannel.wp_receiveRecord hinv.keys honly) ?_ ?_
  · rintro ⟨rest, delivered⟩ io ⟨hread, hcurrent⟩
    have hnext : LoopInv { s with io := io, unread := rest } := hinv.of_read hread rfl
    cases delivered with
    | none => exact hnext
    | some pair => exact hnext.deliver (hcurrent pair.1 pair.2 rfl)
  · intro _ io hread
    exact hinv.of_read hread rfl

theorem LoopInv.timedOut (hinv : s.LoopInv) : (s.timedOut P).LoopInv := by
  unfold ServerLoop.timedOut
  apply handle_of_wp
  have hkeeps : Keeps (HandshakeChannel.Uses Contribution.Disciplined)
      (HandshakeChannel.timedOut P (s.timeoutCount + 1)) := HandshakeChannel.keeps_timedOut _
  refine wp_mono (hkeeps s.io) ?_ ?_
  · intro _ io huses
    exact hinv.of_read (.of_uses hinv.keys huses) rfl
  · intro _ io huses
    exact hinv.of_read (.of_uses hinv.keys huses) rfl

theorem LoopInv.step {event : Event} (hinv : s.LoopInv)
    (honly : s.earlyDataOnly P event = true) : (s.step P hooks event).LoopInv := by
  unfold ServerLoop.step
  split_ifs with hended hunread
  · exact hinv
  · cases event with
    | arrive datagram => exact ⟨hinv.keys, hinv.contributions, hinv.clientRecords⟩
    | read => exact hinv
    | timeout => exact hinv.timedOut
    | expire => exact ⟨hinv.keys, hinv.contributions, hinv.clientRecords⟩
  · cases event with
    | read => exact hinv.readNext honly
    | arrive datagram => exact hinv
    | timeout => exact hinv
    | expire => exact hinv

/-- **Epoch discipline.** In a run in which the early-data keys open no alert, ACK or
handshake record, every fragment and every ACK came from the client's handshake keys,
early-data keys contributed application data only, and every number acknowledged, at
once or at the end, is that of the record whose fragments were just processed. -/
theorem epoch_discipline {s : ServerLoop} (hkeys : s.io.Keys) (hfresh : s.io.contributions = [])
    (hrecords : s.flight.clientRecords = []) {events : List Event}
    (honly : Along (step P hooks) (fun s event => s.earlyDataOnly P event = true) s events) :
    (∀ c ∈ (run (step P hooks) s events).io.contributions, c.Disciplined) ∧
      ∀ number ∈ (run (step P hooks) s events).flight.clientRecords,
        Contribution.acknowledged number number ∈
          (run (step P hooks) s events).io.contributions := by
  have hstart : s.LoopInv := ⟨hkeys, by simp [hfresh], by simp [hrecords]⟩
  have hlast : (run (step P hooks) s events).LoopInv :=
    run_invariant (fun _ _ hinv hpermitted => hinv.step hpermitted) hstart honly
  exact ⟨hlast.contributions, hlast.clientRecords⟩

/-! ### A server that accepted early data -/

/-- A verification that accepts a Finished of one byte. -/
def lenientServer : ServerHooks where
  hashSize := 1
  verifyRawPublicKeyMessage _ := .ok []
  verifyCertificateChain _ := .ok []
  peerDelegatedCredential _ _ := .ok []
  verifyPeerAuthenticationSignature _ _ _ := .ok ()
  verifyFinished _ _ := true
  parseCertificateHandshakeMessage _ _ := .ok ⟨[]⟩
  validateCertificateMessage _ _ := .ok ()
  matchCertificateOIDFilters _ := .ok ()

def clientEarlyKeys : RecordCipher := newRecordCipher .checksum .aes128GcmSha256 [1] 1 64
def clientHandshakeKeys : RecordCipher := newRecordCipher .checksum .aes128GcmSha256 [2] 2 64
def serverHandshakeKeys : RecordCipher := newRecordCipher .checksum .aes128GcmSha256 [3] 2 64

/-- The server's flight: ServerHello, then EncryptedExtensions and Finished. -/
def sentServerFlight : OutgoingFlight × CipherStore :=
  match buildPlainFlight [⟨2, 0, [1]⟩] 1200 0,
    buildProtectedFlight .checksum [⟨8, 1, [0, 0]⟩, ⟨20, 2, [5]⟩] 1200 0
      ⟨[serverHandshakeKeys], []⟩ with
  | .ok hello, .ok flight store => (.combineFlights hello flight, store)
  | _, _ => (.plain ⟨[], [], 0⟩, ⟨[serverHandshakeKeys], []⟩)

/-- A resumption without cookie: the server waits for Finished and reads early data. -/
def earlyServer : ServerLoop where
  io :=
    { config := .standard
      cipher := some clientHandshakeKeys
      early := some clientEarlyKeys
      earlyInput := ⟨true, 1000, 0, [], false, .empty⟩
      inbox := .newHandshakeInbox 1 1000 8 4000
      outgoing := some ⟨sentServerFlight.1, false⟩
      ackCipher := some 0
      outbox := ⟨sentServerFlight.2, ⟨1200, 548, [], []⟩⟩
      mtu := 1200
      plainSendSequence := 0
      contributions := [] }
  flight :=
    ⟨true, .noClientCert, none, .x509, .expectFinished, [], .none, [], false, false, 1, 1, []⟩
  unread := []
  timeoutCount := 0
  result := none

def clientFinished : Bytes := HandshakeFragment.putHandshakeFragment ⟨20, 1, 1, 0, [9]⟩

def sealedWith (cipher : RecordCipher) (contentType : UInt8) (content : Bytes) : Bytes :=
  (cipher.protect .checksum contentType content true true).packet

theorem earlyServer_keys : earlyServer.io.Keys where
  handshake := ⟨clientHandshakeKeys, rfl, rfl⟩
  early := by
    rintro cipher ⟨⟩
    rfl

/-- A Finished under the early-data keys is taken for one of the handshake keys, and
the number acknowledged for it belongs to no record. -/
theorem epoch_discipline_earlyFinished :
    earlyServer.io.contributions = [] ∧ earlyServer.flight.clientRecords = [] ∧
      ¬∀ c ∈ (run (step .checksum lenientServer) earlyServer
        [.arrive (sealedWith clientEarlyKeys recordTypeHandshake clientFinished), .read]
        ).io.contributions, c.Disciplined := ⟨rfl, rfl, by decide +kernel⟩

/-- Early data first, and then the Finished under the handshake keys. -/
theorem epoch_discipline_earlyData :
    let events : List Event :=
      [.arrive (sealedWith clientEarlyKeys recordTypeApplicationData [1, 2, 3]), .read,
        .arrive (sealedWith clientHandshakeKeys recordTypeHandshake clientFinished), .read]
    let last := run (step .checksum lenientServer) earlyServer events
    (∀ c ∈ last.io.contributions, c.Disciplined) ∧ ∀ number ∈ last.flight.clientRecords,
        Contribution.acknowledged number number ∈ last.io.contributions :=
  epoch_discipline earlyServer_keys rfl rfl (by decide +kernel)

end ServerLoop

end Dtls13
