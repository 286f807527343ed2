import Dtls13.Conn.Handlers

/-! # Calls, timers and the steps of two endpoints

What calls and timers do to the sending half, and from this what one step of the two
endpoints does to each of them.
-/

namespace Dtls13

open ByteCodec StateLogic CipherStore

namespace Conn

variable {P : Primitives} {hooks : AuthHooks} {acks : RecordNumber → Prop} {c next : Conn}

/-! ## Calls -/

theorem keeps_reaches_writeDatagram (payload : Bytes) :
    Keeps (Reaches acks) (writeDatagram P payload) := by
  have hupdate : Keeps (Reaches acks) (maybeStartAutomaticKeyUpdate P) :=
    keeps_bind keeps_get fun _ => keeps_ite (fun _ => keeps_reaches_beginKeyUpdate false) fun _ =>
      keeps_pure _
  apply keeps_reaches
  intro c hsound
  unfold writeDatagram
  rw [wp_bind, wp_get]
  refine wp_guard hsound.refl fun _ => ?_
  have hsealed : wp (do
        let wire ← onStore (CipherStore.sealRecord P c.sendCipher recordTypeApplicationData payload)
        writeRecord wire)
      (fun _ => Sends acks c) (fun _ => Sends acks c) c := hsound.wp_sealRecord (by decide) payload
  rw [wp_bind] at hsealed ⊢
  refine wp_imp hsealed fun wire middle hwritten => ?_
  refine wp_seq hwritten fun _ written hsends => ?_
  exact wp_both (hupdate written) fun _ hnext => hsends.trans (hnext hsends.sound)

theorem keeps_reaches_sendNewSessionTickets
    (tickets : List (NewSessionTicketMessage × Option UInt8)) :
    Keeps (Reaches acks) (sendNewSessionTickets P tickets) := by
  apply keeps_reaches
  intro c hsound
  unfold sendNewSessionTickets
  rw [wp_bind, wp_get]
  refine wp_guard hsound.refl fun _ => ?_
  refine wp_ofExcept_bind (fun bodies _ => ?_) fun _ => hsound.refl
  exact wp_ofExcept_bind (fun _ hcan => hsound.wp_sendFlight hcan .ticket) fun _ => hsound.refl

theorem keeps_reaches_sendNewConnectionIDs (connectionIDs : List Bytes) (immediate : Bool) :
    Keeps (Reaches acks) (sendNewConnectionIDs P connectionIDs immediate) := by
  apply keeps_reaches
  intro c hsound
  have hsame : Err → Sends acks c c := fun _ => hsound.refl
  unfold sendNewConnectionIDs
  refine wp_ofExcept_bind (fun body _ => ?_) hsame
  rw [wp_bind, wp_get]
  refine wp_guard hsound.refl fun _ => ?_
  refine wp_guard hsound.refl fun _ => ?_
  refine wp_ofExcept_bind (fun _ hcan => ?_) hsame
  refine wp_ofExcept_bind (fun merged _ => ?_) hsame
  refine wp_guard hsound.refl fun _ => ?_
  rw [wp_bind, wp_onStore]
  refine wp_mono (CipherStore.wp_buildProtectedFlight _ c.pathMTU c.sendCipher _)
    (fun f store hbuilt => ?_) fun _ _ hpart => hsound.growStore (hpart.grows ?_)
  · have hgrows := hbuilt.seals.growsAny
    have hgrown : Sends acks c _ := hsound.growStore hgrows
    rw [wp_bind, onReceiver, wp_zoom]
    apply wp_of_forall
    · exact fun _ r => hsound.wp_commitFlight hcan hgrows (hbuilt.holds hsound.sender.cipher_lt) _ r
    · exact fun _ r => hgrown.trans (SameSending.reaches ⟨rfl, rfl, rfl⟩ hgrown.sound)
  · exact fun _ _ _ _ _ _ => trivial

theorem keeps_reaches_requestConnectionIDs (count : UInt8) :
    Keeps (Reaches acks) (requestConnectionIDs P count) := by
  apply keeps_reaches
  intro c hsound
  unfold requestConnectionIDs
  rw [wp_bind, wp_get]
  refine wp_guard hsound.refl fun _ => ?_
  refine wp_guard hsound.refl fun _ => ?_
  refine wp_guard hsound.refl fun _ => ?_
  refine wp_ofExcept_bind (fun _ hcan => ?_) fun _ => hsound.refl
  refine wp_seq (hsound.wp_sendFlight (by exact hcan) .requestCID) fun _ middle hsends => ?_
  exact hsends.trans (SameSending.reaches ⟨rfl, rfl, rfl⟩ hsends.sound)

theorem keeps_reaches_requestClientCertificate (context body : Bytes) :
    Keeps (Reaches acks) (requestClientCertificate P context body) := by
  apply keeps_reaches
  intro c hsound
  unfold requestClientCertificate
  rw [wp_bind, wp_get]
  refine wp_guard hsound.refl fun _ => ?_
  refine wp_guard hsound.refl fun _ => ?_
  refine wp_guard hsound.refl fun _ => ?_
  refine wp_guard hsound.refl fun _ => ?_
  refine wp_ofExcept_bind (fun _ hcan => ?_) fun _ => hsound.refl
  refine wp_ofExcept_bind (fun transcript _ => ?_) fun _ => hsound.refl
  refine wp_seq (hsound.wp_sendFlight (by exact hcan) .clientAuthRequest) fun _ middle hsends => ?_
  exact hsends.trans (SameSending.reaches ⟨rfl, rfl, rfl⟩ hsends.sound)

theorem keeps_reaches_useNextConnectionID : Keeps (Reaches acks) useNextConnectionID := by
  apply keeps_bind keeps_get
  intro c
  cases c.cids.peerSpareConnectionIDs with
  | nil => exact keeps_throw _
  | cons cid spares =>
    refine keeps_bind (keeps_reaches_modify ?_) fun _ =>
      keeps_reaches_activatePeerConnectionID cid
    exact fun _ => ⟨rfl, rfl, rfl⟩

theorem keeps_reaches_sendConnectionIDResponse :
    Keeps (Reaches acks) (sendConnectionIDResponse P) := by
  apply keeps_bind keeps_get
  intro c
  cases c.answers.drawn with
  | none => exact keeps_pure _
  | some connectionIDs =>
    refine keeps_bind (keeps_reaches_modify fun _ => ⟨rfl, rfl, rfl⟩) fun _ => ?_
    exact keeps_recover (keeps_reaches_sendNewConnectionIDs _ _) fun _ => keeps_pure _

theorem keeps_reaches_perform (call : Call) : Keeps (Reaches acks) (perform P call) := by
  cases call with
  | sendKeyUpdate requestPeer => exact keeps_reaches_beginKeyUpdate requestPeer
  | writeDatagram payload => exact keeps_reaches_writeDatagram payload
  | readDatagram =>
    apply keeps_reaches_modify
    intro c
    split <;> exact ⟨rfl, rfl, rfl⟩
  | sendNewSessionTickets tickets => exact keeps_reaches_sendNewSessionTickets tickets
  | sendNewConnectionIDs connectionIDs immediate =>
    exact keeps_reaches_sendNewConnectionIDs connectionIDs immediate
  | requestConnectionIDs count => exact keeps_reaches_requestConnectionIDs count
  | useNextConnectionID => exact keeps_reaches_useNextConnectionID
  | requestClientCertificate context body =>
    exact keeps_reaches_requestClientCertificate context body
  | drawConnectionIDResponse index results =>
    apply keeps_reaches_modify
    intro c
    split <;> exact ⟨rfl, rfl, rfl⟩
  | sendConnectionIDResponse => exact keeps_reaches_sendConnectionIDResponse

theorem reaches_callStep (call : Call) (c : Conn) : Reaches acks c (callStep P call c) := by
  unfold callStep
  split
  · exact Reaches.refl acks c
  · exact exec_of_wp (keeps_reaches_perform call c)

/-! ## Timers -/

theorem keeps_reaches_expire (timeout : Timeout) : Keeps (Reaches acks) (expire P timeout) := by
  cases timeout with
  | keyUpdate =>
    apply keeps_bind keeps_get
    intro c
    apply keeps_ite (fun _ => keeps_pure _)
    exact fun _ => keeps_reaches fun _ hsound => hsound.wp_retransmitKeyUpdate
  | flight slot count => exact keeps_reaches fun _ hsound => hsound.wp_flightTimeout slot count

theorem reaches_timeoutStep (timeout : Timeout) (c : Conn) :
    Reaches acks c (timeoutStep P timeout c) := by
  unfold timeoutStep
  split
  · exact Reaches.refl acks c
  · exact Reaches.runOrFail (keeps_reaches_expire timeout c)

end Conn

/-! ## Steps of the system -/

def SystemEvent.side : SystemEvent → Side
  | .deliver side _ | .call side _ | .timeout side _ => side

namespace System

variable (P : Primitives) (hooks : AuthHooks)

@[simp] theorem endpoint_update (s : System) (side : Side) (f : Conn → Conn) :
    (s.update side f).endpoint side = f (s.endpoint side) := by
  cases side <;> rfl

@[simp] theorem endpoint_update_peer (s : System) (side : Side) (f : Conn → Conn) :
    (s.update side f).endpoint side.peer = s.endpoint side.peer := by
  cases side <;> rfl

/-- The record that is delivered is genuine where it arrives. -/
def genuine (s : System) : SystemEvent → Bool
  | .deliver side index => (s.delivered side index).all ((s.endpoint side).genuine P)
  | _ => true

variable {P hooks} {s : System} {event : SystemEvent}

/-- A step is one of the endpoint it happens at. -/
theorem step_peer : (s.step P hooks event).endpoint event.side.peer =
    s.endpoint event.side.peer := by
  cases event with
  | deliver side index =>
    dsimp only [step, SystemEvent.side]
    cases s.delivered side index with
    | none => rfl
    | some w => exact endpoint_update_peer ..
  | call side call => exact endpoint_update_peer ..
  | timeout side timeout => exact endpoint_update_peer ..

/-- What holds of the endpoint a step happens at and of its peer holds of both. -/
theorem forall_side {p : Side → Prop} (side : Side) (hown : p side) (hpeer : p side.peer) :
    ∀ other, p other := by
  intro other
  cases side <;> cases other <;> assumption

variable (hooks) in
/-- A step acknowledges the record it delivers, if that is a handshake record. -/
theorem reaches_step {acks : RecordNumber → Prop} (hgenuine : s.genuine P event = true)
    (hacks : ∀ side index w, event = .deliver side index → s.delivered side index = some w →
      w.contentType = recordTypeHandshake → acks w.number) :
    Conn.Reaches acks (s.endpoint event.side) ((s.step P hooks event).endpoint event.side) := by
  cases event with
  | deliver side index =>
    dsimp only [genuine] at hgenuine
    dsimp only [step, SystemEvent.side]
    cases hw : s.delivered side index with
    | none => exact Conn.Reaches.refl acks _
    | some w =>
      rw [hw, Option.all_some] at hgenuine
      dsimp only
      rw [endpoint_update]
      exact Conn.reaches_receive hgenuine (hacks side index w rfl hw)
  | call side call =>
    dsimp only [step, SystemEvent.side]
    rw [endpoint_update]
    exact Conn.reaches_callStep call _
  | timeout side timeout =>
    dsimp only [step, SystemEvent.side]
    rw [endpoint_update]
    exact Conn.reaches_timeoutStep timeout _

/-- A change of the connection ID seals nothing. -/
theorem keeps_log_setConnectionID (connectionID : Bytes) :
    Keeps (fun s next : Sender => s.store.log = next.store.log)
      (Sender.setConnectionID connectionID) :=
  Sender.keeps_setConnectionID (fun _ _ _ => rfl) fun _ _ => rfl

theorem installSending_log (suite : CipherSuite) (negotiated : Bool) (own peer : EndpointSetup) :
    (Conn.installSending P suite negotiated own peer).store.log = own.store.log := by
  unfold Conn.installSending
  dsimp only
  split
  · exact (exec_of_wp (keeps_log_setConnectionID peer.connectionID _)).symm
  · rfl

theorem sound_start (P : Primitives) (setup : Setup) (side : Side) :
    ((start P setup).endpoint side).Sound := by
  have hsound : ∀ (own peer : EndpointSetup) isClient,
      (Conn.start P setup isClient own peer).Sound := by
    intro own peer isClient
    have hnumbered := Conn.installSending_numbered P setup.suite setup.connectionIDNegotiated
      own peer
    refine ⟨hnumbered.1, ?_, nofun⟩
    intro w hw
    have hlate := (own.late_records w hw).mem
    rwa [← installSending_log (P := P) setup.suite setup.connectionIDNegotiated own peer] at hlate
  cases side
  · exact hsound _ _ _
  · exact hsound _ _ _

end System

end Dtls13
