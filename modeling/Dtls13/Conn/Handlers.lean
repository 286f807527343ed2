import Dtls13.Conn.System
import Dtls13.Conn.Wire

/-! # What the handlers do to the sending half

Every handler of a received record keeps the sending half sound, and acknowledges no
other record. The results about runs of two endpoints start from this.
-/

namespace Dtls13

open ByteCodec StateLogic List

namespace Conn

variable {P : Primitives} {hooks : AuthHooks} {acks : RecordNumber → Prop} {c next : Conn}

/-- What the step sends from a sound state. -/
def Reaches (acks : RecordNumber → Prop) (c next : Conn) : Prop := c.Sound → Sends acks c next

theorem Reaches.refl (acks : RecordNumber → Prop) (c : Conn) : Reaches acks c c := Sound.refl

theorem Reaches.trans {middle : Conn} (hfirst : Reaches acks c middle)
    (hsecond : Reaches acks middle next) : Reaches acks c next := fun hsound =>
  (hfirst hsound).trans (hsecond (hfirst hsound).sound)

instance : Std.Refl (Reaches acks) := ⟨Reaches.refl acks⟩

instance : IsTrans Conn (Reaches acks) := ⟨fun _ _ _ => Reaches.trans⟩

variable {number : RecordNumber} {fail : Err → Conn → Prop} {α : Type}

/-- It is enough to look at sound states. -/
theorem keeps_reaches {m : ConnM α}
    (hm : ∀ c : Conn, c.Sound → wp m (fun _ => Sends acks c) (fun _ => Sends acks c) c) :
    Keeps (Reaches acks) m := by
  intro c
  by_cases hsound : c.Sound
  · exact wp_both (hm c hsound) fun _ hsends _ => hsends
  · unfold wp
    split <;> exact fun habsurd => absurd habsurd hsound

/-! ## Changes of the receiving half -/

/-- The sending half is the same. -/
structure SameSending (c next : Conn) : Prop where
  sender : next.sender = c.sender
  flights : next.flights = c.flights
  sent : next.sent = c.sent

theorem SameSending.reaches (hsame : SameSending c next) : Reaches acks c next := by
  intro hsound
  refine hsound.emit (hsame.sender ▸ hsound.sender.refl) (hsame.sent.trans (append_nil _).symm)
    (by simp) ?_
  rw [hsame.flights, hsame.sender]
  exact hsound.holds

theorem keeps_reaches_modify {f : Conn → Conn} (hf : ∀ c, SameSending c (f c)) :
    Keeps (Reaches acks) (modify f : ConnM PUnit) := keeps_modify fun c => (hf c).reaches

theorem keeps_reaches_onInbound (m : Config → EStateM Err Inbound α) :
    Keeps (Reaches acks) (onInbound m) := by
  apply keeps_bind keeps_get
  intro c
  apply keeps_zoom
  exact fun _ _ => SameSending.reaches ⟨rfl, rfl, rfl⟩

theorem keeps_reaches_onReceiver (m : EStateM Err ReceivingTraffic α) :
    Keeps (Reaches acks) (onReceiver m) := by
  apply keeps_zoom
  exact fun _ _ => SameSending.reaches ⟨rfl, rfl, rfl⟩

theorem keeps_reaches_setAuthState (state : Option PostHandshakeAuthState) :
    Keeps (Reaches acks) (setAuthState state) := keeps_reaches_modify fun _ => ⟨rfl, rfl, rfl⟩

theorem keeps_reaches_dropFlight (slot : FlightSlot) :
    Keeps (Reaches acks) (setFlight slot none) :=
  keeps_reaches fun _ hsound => hsound.setFlight slot nofun

theorem keeps_reaches_bufferPostHandshakeAuthApplication (content : Bytes)
    (number : RecordNumber) :
    Keeps (Reaches acks) (bufferPostHandshakeAuthApplication content number) := by
  apply keeps_bind keeps_get
  intro c
  cases c.auth.state with
  | none => exact keeps_pure _
  | some state =>
    apply keeps_ite (fun _ => keeps_pure _)
    intro _
    apply keeps_ite (fun _ => keeps_throw _)
    intro _
    apply keeps_ite (fun _ => keeps_throw _)
    intro _
    exact keeps_bind (keeps_reaches_setAuthState _) fun _ => keeps_pure _

theorem keeps_reaches_dispatchApplicationData (content : Bytes) (number : RecordNumber) :
    Keeps (Reaches acks) (dispatchApplicationData content number) := by
  have hbuffer : Keeps (Reaches acks) (bufferApplicationRecord content number) := by
    apply keeps_bind (keeps_reaches_onInbound _)
    intro _
    apply keeps_bind (keeps_reaches_onInbound _)
    intro buffered
    exact keeps_ite (fun _ => keeps_pure _) fun _ =>
      keeps_reaches_bufferPostHandshakeAuthApplication content number
  apply keeps_bind hbuffer
  intro buffered
  exact keeps_ite (fun _ => keeps_pure _) fun _ => keeps_reaches_onInbound _

theorem keeps_reaches_dispatchAlert (content : Bytes) (number : RecordNumber) :
    Keeps (Reaches acks) (dispatchAlert content number) := by
  unfold dispatchAlert
  cases AlertMessage.parseAlert content with
  | error err => exact keeps_throw _
  | ok alert =>
    apply keeps_ite (fun _ => keeps_pure _)
    intro _
    exact keeps_ite (fun _ => keeps_reaches_modify fun _ => ⟨rfl, rfl, rfl⟩) fun _ =>
      keeps_throw _

/-! ## Keys, connection IDs and tickets -/

theorem keeps_reaches_writeACK (hacks : acks number) :
    Keeps (Reaches acks) (writeACK P number) :=
  keeps_reaches fun _ hsound => hsound.wp_writeACK hacks

theorem keeps_reaches_beginKeyUpdate (requestUpdate : Bool) :
    Keeps (Reaches acks) (beginKeyUpdate P requestUpdate) :=
  keeps_reaches fun _ hsound => hsound.wp_beginKeyUpdate requestUpdate

theorem keeps_reaches_activatePeerConnectionID (cid : Bytes) :
    Keeps (Reaches acks) (activatePeerConnectionID cid) := by
  apply keeps_bind
  · exact keeps_reaches fun _ hsound => hsound.wp_setConnectionID cid
  · exact fun _ => keeps_reaches_modify fun _ => ⟨rfl, rfl, rfl⟩

theorem keeps_reaches_beginPendingKeyUpdate : Keeps (Reaches acks) (beginPendingKeyUpdate P) := by
  apply keeps_bind keeps_get
  intro c
  apply keeps_ite
  · intro _
    apply keeps_bind (keeps_reaches_beginKeyUpdate false)
    exact fun _ => keeps_reaches_modify fun _ => ⟨rfl, rfl, rfl⟩
  · intro _
    exact keeps_ite (fun _ => keeps_reaches_modify fun _ => ⟨rfl, rfl, rfl⟩) fun _ => keeps_pure _

theorem keeps_reaches_requestKeyUpdateAfterAuthFailures :
    Keeps (Reaches acks) (requestKeyUpdateAfterAuthFailures P) :=
  keeps_bind keeps_get fun _ =>
    keeps_ite (fun _ => keeps_reaches_beginKeyUpdate true) fun _ => keeps_pure _

theorem keeps_reaches_processNewConnectionID (sequence : Nat) (body : Bytes) :
    Keeps (Reaches acks) (processNewConnectionID sequence body) := by
  apply keeps_bind (keeps_ofExcept _)
  intro message
  apply keeps_bind keeps_get
  intro c
  apply keeps_ite (fun _ => keeps_throw _)
  intro _
  apply keeps_ite (fun _ => keeps_pure _)
  intro _
  dsimp only
  split
  · exact keeps_throw _
  · refine keeps_bind (keeps_reaches_modify fun _ => ⟨rfl, rfl, rfl⟩) fun _ => ?_
    split
    · exact keeps_bind (keeps_reaches_modify fun _ => ⟨rfl, rfl, rfl⟩) fun _ =>
        keeps_reaches_activatePeerConnectionID _
    · exact keeps_pure _

theorem keeps_reaches_processRequestConnectionID (sequence : Nat) (body : Bytes) :
    Keeps (Reaches acks) (processRequestConnectionID sequence body) := by
  apply keeps_bind (keeps_ofExcept _)
  intro count
  apply keeps_bind keeps_get
  intro c
  apply keeps_ite (fun _ => keeps_throw _)
  intro _
  apply keeps_ite (fun _ => keeps_pure _)
  intro _
  exact keeps_bind (keeps_reaches_modify fun _ => ⟨rfl, rfl, rfl⟩) fun _ => keeps_pure _

theorem keeps_reaches_processNewSessionTicket (sequence : Nat) (body : Bytes) :
    Keeps (Reaches acks) (processNewSessionTicket sequence body) := by
  apply keeps_bind (keeps_ofExcept _)
  intro message
  apply keeps_ite (fun _ => keeps_pure _)
  intro _
  apply keeps_reaches_modify
  intro c
  split <;> exact ⟨rfl, rfl, rfl⟩

theorem keeps_reaches_processKeyUpdateFragment (hacks : acks number) (f : HandshakeFragment) :
    Keeps (Reaches acks) (processKeyUpdateFragment P f number) := by
  apply keeps_bind keeps_get
  intro c
  apply keeps_ite (fun _ => keeps_throw _)
  intro _
  apply keeps_ite (fun _ => keeps_throw _)
  intro _
  apply keeps_bind (keeps_reaches_onReceiver _)
  rintro ⟨requestUpdate, updated⟩
  apply keeps_bind (keeps_reaches_writeACK hacks)
  intro _
  apply keeps_bind keeps_get
  intro c
  apply keeps_ite (fun _ => keeps_pure _)
  intro _
  apply keeps_ite (fun _ => keeps_reaches_beginKeyUpdate false)
  intro _
  exact keeps_ite (fun _ => keeps_reaches_modify fun _ => ⟨rfl, rfl, rfl⟩) fun _ => keeps_pure _

theorem keeps_reaches_dispatchConnectionIDMessage (hacks : acks number) (f : HandshakeFragment) :
    Keeps (Reaches acks) (dispatchConnectionIDMessage P f number) := by
  have hnone : Keeps (Reaches acks) (do
      writeACK P number
      pure ()) := keeps_bind (keeps_reaches_writeACK hacks) fun _ => keeps_pure _
  apply keeps_bind (keeps_reaches_onInbound _)
  intro body
  cases body with
  | none => exact hnone
  | some body =>
    apply keeps_ite
    · exact fun _ => keeps_bind (keeps_reaches_processNewConnectionID _ body) fun _ => hnone
    · intro _
      refine keeps_bind (keeps_reaches_processRequestConnectionID _ body) fun respond => ?_
      cases respond with
      | none => exact hnone
      | some count =>
        exact keeps_bind (keeps_reaches_writeACK hacks) fun _ =>
          keeps_reaches_modify fun _ => ⟨rfl, rfl, rfl⟩

/-! ## Acknowledgements -/

theorem keeps_reaches_ackFlights (numbers : List RecordNumber) (slots : List FlightSlot) :
    Keeps (Reaches acks) (ackFlights P numbers slots) := by
  induction slots with
  | nil => exact keeps_pure _
  | cons slot rest ih =>
    apply keeps_bind
    · exact keeps_reaches fun _ hsound => hsound.wp_ackPostHandshakeFlight numbers slot
    · exact fun _ => ih

theorem keeps_reaches_applyACK (numbers : List RecordNumber) :
    Keeps (Reaches acks) (applyACK P numbers) := by
  apply keeps_bind keeps_get
  intro c
  apply keeps_bind
  · exact keeps_modify fun _ hsound => hsound.processACK numbers
  · intro _
    apply keeps_ite
    · exact fun _ => keeps_bind keeps_reaches_beginPendingKeyUpdate fun _ =>
        keeps_reaches_ackFlights numbers _
    · exact fun _ => keeps_reaches_ackFlights numbers _

theorem keeps_reaches_dispatchACK (content : Bytes) (epoch : Nat) :
    Keeps (Reaches acks) (dispatchACK P content epoch) := by
  unfold dispatchACK
  cases parseACK content with
  | error err => exact keeps_throw _
  | ok numbers =>
    apply keeps_bind (keeps_ofExcept _)
    exact fun _ => keeps_bind (keeps_reaches_applyACK numbers) fun _ => keeps_pure _

theorem keeps_reaches_ackThenProcess {f : HandshakeFragment}
    {process : Nat → Bytes → ConnM Unit} (hacks : acks number)
    (hprocess : ∀ sequence body, Keeps (Reaches acks) (process sequence body)) :
    Keeps (Reaches acks) (ackThenProcess P f number process) := by
  apply keeps_bind (keeps_reaches_writeACK hacks)
  intro _
  apply keeps_bind (keeps_reaches_onInbound _)
  intro body
  cases body with
  | none => exact keeps_pure _
  | some body => exact hprocess _ body

/-! ## Client authentication -/

theorem keeps_reaches_processPostHandshakeCertificateRequest (sequence : Nat) (body : Bytes) :
    Keeps (Reaches acks) (processPostHandshakeCertificateRequest P hooks sequence body) := by
  apply keeps_reaches
  intro c hsound
  have hsame : Err → Sends acks c c := fun _ => hsound.refl
  unfold processPostHandshakeCertificateRequest
  refine wp_ofExcept_bind (fun requestContext _ => ?_) hsame
  rw [wp_bind, wp_get]
  refine wp_guard hsound.refl fun _ => ?_
  refine wp_guard hsound.refl fun _ => ?_
  refine wp_guard hsound.refl fun _ => ?_
  refine wp_ofExcept_bind (fun transcript _ => ?_) hsame
  refine wp_ofExcept_bind (fun ⟨hasIdentity, certificateBody⟩ _ => ?_) hsame
  refine wp_ofExcept_bind (fun _ hcan => ?_) hsame
  refine wp_ofExcept_bind (fun ⟨bodies, last⟩ hresponse => ?_) hsame
  rw [← clientAuthResponse_length hooks hresponse] at hcan
  refine wp_seq (hsound.wp_sendFlight hcan .clientAuthResponse) fun _ middle hsends => ?_
  rw [wp_modify]
  exact hsends.trans (SameSending.reaches ⟨rfl, rfl, rfl⟩ hsends.sound)

theorem keeps_reaches_finishPostHandshakeAuth (result : Except Err Unit) :
    Keeps (Reaches acks) (finishPostHandshakeAuth result) := by
  have hclear : Keeps (Reaches acks) (do
      setAuthState none
      setFlight .clientAuthRequest none) :=
    keeps_bind (keeps_reaches_setAuthState _) fun _ => keeps_reaches_dropFlight _
  unfold finishPostHandshakeAuth
  cases result with
  | error err => exact keeps_bind hclear fun _ => keeps_throw _
  | ok =>
    apply keeps_bind keeps_get
    intro c
    apply keeps_bind
    · apply keeps_recover (keeps_reaches_onInbound _)
      exact fun _ => keeps_bind hclear fun _ => keeps_throw _
    · exact fun _ => hclear

theorem keeps_reaches_processPostHandshakeAuthMessage (state : PostHandshakeAuthState)
    (response : ResponseRange) (message : CompletedHandshake) :
    Keeps (Reaches acks) (processPostHandshakeAuthMessage hooks state response message) := by
  apply keeps_ite (fun _ => keeps_ofExcept _)
  intro _
  apply keeps_ite (fun _ => keeps_ofExcept _)
  intro _
  apply keeps_ite (fun _ => ?_) fun _ => keeps_throw _
  apply keeps_bind keeps_get
  intro c
  apply keeps_bind (keeps_ofExcept _)
  intro _
  apply keeps_bind (keeps_reaches_onInbound _)
  intro _
  apply keeps_bind (keeps_ofExcept _)
  intro _
  apply keeps_bind (keeps_ofExcept _)
  intro transcript
  refine keeps_bind (keeps_reaches_modify ?_) fun _ => keeps_pure _
  exact fun _ => ⟨rfl, rfl, rfl⟩

theorem keeps_reaches_processPostHandshakeAuthMessages (response : ResponseRange)
    (messages : List CompletedHandshake) (state : PostHandshakeAuthState) :
    Keeps (Reaches acks) (processPostHandshakeAuthMessages hooks response messages state) := by
  induction messages generalizing state with
  | nil => exact keeps_pure _
  | cons message rest ih =>
    apply keeps_bind
    · apply keeps_recover (keeps_reaches_processPostHandshakeAuthMessage state response message)
      exact fun err => keeps_bind (keeps_reaches_finishPostHandshakeAuth _) fun _ => keeps_pure _
    · intro next
      apply keeps_bind (keeps_reaches_setAuthState _)
      intro _
      apply keeps_ite (fun _ => ?_) fun _ => ih next
      refine keeps_bind (keeps_reaches_modify ?_) fun _ =>
        keeps_reaches_finishPostHandshakeAuth _
      exact fun _ => ⟨rfl, rfl, rfl⟩

theorem keeps_reaches_processPostHandshakeAuthFragment
    (hacks : acks number) (f : HandshakeFragment) :
    Keeps (Reaches acks) (processPostHandshakeAuthFragment P hooks f number) := by
  apply keeps_bind keeps_get
  intro c
  cases c.auth.state with
  | none =>
    exact keeps_ite (fun _ => keeps_reaches_writeACK hacks) fun _ => keeps_throw _
  | some state =>
    apply keeps_ite (fun _ => keeps_throw _)
    intro _
    apply keeps_bind (keeps_ofExcept _)
    intro noted
    apply keeps_bind (keeps_ofExcept _)
    intro response
    apply keeps_bind (keeps_reaches_setAuthState _)
    intro _
    apply keeps_bind
    · intro c
      unfold wp
      dsimp only
      cases HandshakeInbox.addProtected f number.epoch noted.inbox <;> exact Reaches.refl acks c
    · rintro ⟨messages, inbox⟩
      apply keeps_bind (keeps_reaches_setAuthState _)
      intro _
      apply keeps_bind (keeps_reaches_writeACK hacks)
      exact fun _ => keeps_reaches_processPostHandshakeAuthMessages _ _ _

/-! ## Records -/

theorem keeps_reaches_dispatchPostHandshakeFragment (hacks : acks number)
    (f : HandshakeFragment) :
    Keeps (Reaches acks) (dispatchPostHandshakeFragment P hooks f number) := by
  apply keeps_bind keeps_get
  intro c
  apply keeps_ite
  · exact fun _ => keeps_reaches_ackThenProcess hacks
      keeps_reaches_processPostHandshakeCertificateRequest
  intro _
  apply keeps_ite (fun _ => keeps_reaches_processPostHandshakeAuthFragment hacks f)
  intro _
  apply keeps_ite
  · exact fun _ => keeps_reaches_ackThenProcess hacks keeps_reaches_processNewSessionTicket
  intro _
  apply keeps_ite (fun _ => keeps_reaches_dispatchConnectionIDMessage hacks f)
  intro _
  exact keeps_ite (fun _ => keeps_reaches_processKeyUpdateFragment hacks f) fun _ => keeps_throw _

theorem keeps_reaches_dispatchPostHandshakeFragments (hacks : acks number)
    (fragments : List HandshakeFragment) :
    Keeps (Reaches acks) (dispatchPostHandshakeFragments P hooks number fragments) := by
  induction fragments with
  | nil => exact keeps_pure _
  | cons f rest ih =>
    exact keeps_bind (keeps_reaches_dispatchPostHandshakeFragment hacks f) fun _ => ih

theorem keeps_reaches_dispatchHandshake (hacks : acks number) (content : Bytes) (epoch : Nat) :
    Keeps (Reaches acks) (dispatchHandshake P hooks content number epoch) := by
  apply keeps_bind (keeps_ofExcept _)
  intro fragments
  apply keeps_ite (fun _ => keeps_throw _)
  intro _
  apply keeps_bind keeps_get
  intro c
  split
  · apply keeps_ite (fun _ => ?_) fun _ => keeps_pure _
    exact keeps_recover (keeps_reaches_writeACK hacks) fun _ => keeps_pure _
  · exact keeps_reaches_dispatchPostHandshakeFragments hacks fragments

theorem keeps_reaches_dispatchRecord {opened : OpenedRecord}
    (hacks : opened.contentType = recordTypeHandshake → acks number) :
    Keeps (Reaches acks) (dispatchRecord P hooks opened number) := by
  apply keeps_ite
  · intro _
    apply keeps_ite (fun _ => keeps_throw _)
    exact fun _ => keeps_bind (keeps_reaches_dispatchApplicationData _ _) fun _ => keeps_pure _
  intro _
  apply keeps_ite
  · exact fun _ => keeps_bind (keeps_reaches_dispatchAlert _ _) fun _ => keeps_pure _
  intro _
  apply keeps_ite (fun _ => keeps_reaches_dispatchACK _ _)
  intro _
  refine keeps_ite (fun htype => ?_) fun _ => keeps_pure _
  exact keeps_bind (keeps_reaches_dispatchHandshake (hacks htype) _ _) fun _ => keeps_pure _

/-! ## Genuine records -/

variable (P) in
/-- What the first record of a datagram opens to: the record and its number. -/
def opens (c : Conn) (datagram : Bytes) : Option (OpenedRecord × RecordNumber) :=
  match datagram, c.receiver.epochs.openRecord P datagram with
  | first :: _, (.ok (opened, epoch), epochs) =>
    match epochs.selectCipher first with
    | .ok cipher => some (opened, ⟨epoch, cipher.lastOpened⟩)
    | .error _ => none
  | _, _ => none

variable (P) in
/-- If the record opens at all, it opens to what was sealed in it, under its own number.
This is what the authentication of records is for. -/
def genuine (c : Conn) (w : SealedRecord) : Bool :=
  (c.opens P w.packet).all fun result =>
    result.1.contentType == w.contentType && result.1.content == w.content &&
      decide (w.packet.length ≤ result.1.consumed) && result.2 == w.number

variable (P) in
/-- The connection after it tried to open the datagram. -/
def heard (c : Conn) (datagram : Bytes) : Conn :=
  { c with receiver := { c.receiver with
      epochs := (c.receiver.epochs.openRecord P datagram).2 } }

/-- The connection after it noted the connection ID of an opened record. -/
def noted (c : Conn) (cipher : RecordCipher) : Conn :=
  if cipher.hasConnectionID then
    { c with cids := { c.cids with localConnectionID := cipher.lastConnectionID } }
  else c

theorem wp_openInPlace {datagram : Bytes} {post : Except Err (OpenedRecord × Nat) → Conn → Prop} :
    wp (openInPlace P datagram) post fail c ↔
      post (c.receiver.epochs.openRecord P datagram).1 (c.heard P datagram) := Iff.rfl

theorem wp_noteOpened {cipher : RecordCipher} {epoch : Nat} {post : RecordNumber → Conn → Prop} :
    wp (noteOpened cipher epoch) post fail c ↔
      post ⟨epoch, cipher.lastOpened⟩ (c.noted cipher) := Iff.rfl

theorem dispatchRecords_nil (fuel : Nat) : dispatchRecords P hooks fuel [] = pure [] := by
  cases fuel <;> rfl

/-- A genuine record is not opened, or it is handed to its handler. -/
theorem reaches_dispatchDatagram {w : SealedRecord} (hgenuine : c.genuine P w = true)
    (hacks : w.contentType = recordTypeHandshake → acks w.number) :
    wp (dispatchDatagram P hooks w.packet) (fun _ => Reaches acks c) (fun _ => Reaches acks c)
      c := by
  unfold dispatchDatagram
  unfold genuine opens at hgenuine
  generalize w.packet = packet at *
  cases packet with
  | nil => exact Reaches.refl acks c
  | cons first rest =>
    have hheard : Reaches acks c (c.heard P (first :: rest)) :=
      SameSending.reaches ⟨rfl, rfl, rfl⟩
    rw [length_cons]
    unfold dispatchRecords
    rw [wp_bind, wp_openInPlace]
    rcases hopen : c.receiver.epochs.openRecord P (first :: rest) with ⟨result, epochs⟩
    rw [hopen] at hgenuine
    cases result with
    | error err =>
      dsimp only
      split
      · exact hheard
      · refine wp_both (keeps_bind keeps_get (fun _ => ?_) _) fun _ => hheard.trans
        exact keeps_ite (fun _ => keeps_bind keeps_reaches_requestKeyUpdateAfterAuthFailures
          fun _ => keeps_pure _) fun _ => keeps_pure _
    | ok value =>
      obtain ⟨opened, epoch⟩ := value
      have hepochs : (c.heard P (first :: rest)).receiver.epochs = epochs := by
        unfold heard
        rw [hopen]
      dsimp only at hgenuine ⊢
      rw [wp_bind, wp_get, hepochs]
      cases hselect : epochs.selectCipher first with
      | error err => exact hheard
      | ok cipher =>
        rw [hselect] at hgenuine
        simp only [Option.all_some, Bool.and_eq_true, beq_iff_eq, decide_eq_true_eq]
          at hgenuine
        obtain ⟨⟨⟨htype, -⟩, hconsumed⟩, hnumber⟩ := hgenuine
        have hrest : (first :: rest).drop opened.consumed = [] :=
          drop_eq_nil_of_le hconsumed
        have hnoted : Reaches acks c ((c.heard P (first :: rest)).noted cipher) := by
          unfold noted
          split <;> exact SameSending.reaches ⟨rfl, rfl, rfl⟩
        rw [wp_bind, wp_noteOpened, hrest, hnumber, dispatchRecords_nil]
        refine wp_both (keeps_bind keeps_get (fun _ => ?_) _) fun _ => hnoted.trans
        exact keeps_ite (fun _ => keeps_pure _) fun _ => keeps_bind
          (keeps_reaches_dispatchRecord (htype ▸ hacks)) fun _ => keeps_pure _

/-! ## Steps of an endpoint -/

theorem reaches_failConnection (c : Conn) (err : Err) :
    Reaches acks c (c.failConnection P err) := by
  intro hsound
  have hcleared : ∀ middle : Conn, Sends acks c middle → Sends acks c { middle with
      flights := fun _ => none
      inbound := .empty
      keyUpdateResponsePending := false
      auth := { middle.auth with state := none }
      failure := some err } := fun middle hmiddle =>
    hmiddle.trans (hmiddle.sound.emit hmiddle.sound.sender.refl (append_nil _).symm (by simp) nofun)
  unfold failConnection
  dsimp only
  split
  · exact hcleared c hsound.refl
  · exact hcleared _ (exec_of_wp (hsound.wp_sealRecord (by decide) _))

theorem Reaches.runOrFail {m : ConnM α}
    (hm : wp m (fun _ => Reaches acks c) (fun _ => Reaches acks c) c) :
    Reaches acks c (runOrFail P m c) := by
  apply handle_of_wp
  exact wp_mono hm (fun _ _ hnext => hnext) fun err middle hmiddle =>
    hmiddle.trans (reaches_failConnection middle err)

/-- The receipt of a genuine record. -/
theorem reaches_receive {w : SealedRecord} (hgenuine : c.genuine P w = true)
    (hacks : w.contentType = recordTypeHandshake → acks w.number) :
    Reaches acks c (receive P hooks w c) := by
  unfold receive
  split
  · exact Reaches.refl acks c
  · exact Reaches.runOrFail (reaches_dispatchDatagram hgenuine hacks)

end Conn

end Dtls13
