import Dtls13.Handshake.Outgoing

/-! # Writing flights

A write to the transport succeeds, fails because the datagram is too long, or fails
otherwise; what the next writes come to is part of the state, and stands for any
behaviour of the network. A flight that is too long is cut up anew for a smaller
path MTU and sent again.
-/

namespace Dtls13

open StateLogic

inductive WriteOutcome where
  | written
  | tooLong
  | failed
  deriving DecidableEq, Repr

/-- The path, what the next writes on it come to, and the records written so far.
Writes beyond the list of outcomes succeed. -/
structure Transport where
  pathMTU : Nat
  pathMTUFloor : Nat
  outcomes : List WriteOutcome
  written : List SealedRecord
  deriving DecidableEq, Repr

namespace Transport

def write (record : SealedRecord) : EStateM Err Transport Unit := do
  let t ← get
  match t.outcomes.head? with
  | some .tooLong => do
    set { t with outcomes := t.outcomes.tail }
    throw .datagramTooLarge
  | some .failed => do
    set { t with outcomes := t.outcomes.tail }
    throw .transport
  | _ => set { t with outcomes := t.outcomes.tail, written := t.written ++ [record] }

/-- Records one after another, up to the first failure. -/
def writeAll : List SealedRecord → EStateM Err Transport Unit
  | [] => pure ()
  | record :: rest => do
    write record
    writeAll rest

/-- The next smaller MTU, unless the floor is reached. -/
def reducePathMTU (t : Transport) : Option Nat :=
  if t.pathMTU ≤ t.pathMTUFloor then none else some (max (t.pathMTU * 3 / 4) t.pathMTUFloor)

/-- Writing changes what was written and what is to come, and nothing of the path. -/
structure Wrote (records : List SealedRecord) (t next : Transport) : Prop where
  written : next.written = t.written ++ records
  pathMTU : next.pathMTU = t.pathMTU
  pathMTUFloor : next.pathMTUFloor = t.pathMTUFloor

theorem Wrote.trans {first second : List SealedRecord} {t middle next : Transport}
    (hfirst : Wrote first t middle) (hsecond : Wrote second middle next) :
    Wrote (first ++ second) t next where
  written := by rw [hsecond.written, hfirst.written, List.append_assoc]
  pathMTU := hsecond.pathMTU.trans hfirst.pathMTU
  pathMTUFloor := hsecond.pathMTUFloor.trans hfirst.pathMTUFloor

theorem wp_write (record : SealedRecord) (t : Transport) :
    wp (write record) (fun _ => Wrote [record] t) (fun _ => Wrote [] t) t := by
  have hnone : Wrote [] t { t with outcomes := t.outcomes.tail } :=
    ⟨(List.append_nil _).symm, rfl, rfl⟩
  simp only [write, wp_bind, wp_get]
  split
  · exact hnone
  · exact hnone
  · exact ⟨rfl, rfl, rfl⟩

/-- A failure leaves the records before it written. -/
theorem wp_writeAll (records : List SealedRecord) (t : Transport) :
    wp (writeAll records) (fun _ => Wrote records t)
      (fun _ next => ∃ done rest, records = done ++ rest ∧ rest ≠ [] ∧ Wrote done t next) t := by
  induction records generalizing t with
  | nil => exact ⟨(List.append_nil _).symm, rfl, rfl⟩
  | cons record rest ih =>
    rw [writeAll, wp_bind]
    refine wp_mono (wp_write record t) ?_ ?_
    · intro _ middle hfirst
      refine wp_mono (ih middle) (fun _ next hrest => hfirst.trans hrest) ?_
      rintro _ next ⟨done, others, rfl, hne, hdone⟩
      exact ⟨record :: done, others, rfl, hne, hfirst.trans hdone⟩
    · intro _ next hnone
      exact ⟨[], record :: rest, rfl, List.cons_ne_nil _ _, hnone⟩

end Transport

/-! ## Flights on a transport -/

/-- The ciphers an endpoint sends with, and where it sends to. -/
structure Outbox where
  store : CipherStore
  transport : Transport

/-- A flight that is on its way; `retransmitted` says whether any of it was sent twice. -/
structure SentFlight where
  flight : OutgoingFlight
  retransmitted : Bool
  deriving DecidableEq, Repr

namespace SentFlight

def records (f : SentFlight) : List FlightRecord := f.flight.records

def withRecords (f : SentFlight) (records : List FlightRecord) : SentFlight :=
  { f with flight := f.flight.withRecords records }

def ack (f : SentFlight) (numbers : List RecordNumber) : SentFlight :=
  f.withRecords (ackRecords f.records numbers)

def complete (f : SentFlight) : Bool := f.records.all (·.acked)

def hasAcknowledgedRecord (f : SentFlight) : Bool := f.records.any (·.acked)

end SentFlight

namespace Outbox

variable (P : Primitives)

def onStore {α : Type} (m : EStateM Err CipherStore α) : EStateM Err Outbox α :=
  zoom Outbox.store (fun store o => { o with store := store }) m

def onTransport {α : Type} (m : EStateM Err Transport α) : EStateM Err Outbox α :=
  zoom Outbox.transport (fun transport o => { o with transport := transport }) m

/-- The result of a rebuild or a resize; on a failure the flight is given up. -/
def renewed (f : SentFlight) (o : Outbox) :
    OutgoingFlight × CipherStore × Option Err → EStateM.Result Err Outbox SentFlight
  | (flight, store, none) => .ok { f with flight := flight } { o with store := store }
  | (_, store, some err) => .error err { o with store := store }

def refreshPending (f : SentFlight) : EStateM Err Outbox SentFlight := fun o =>
  renewed f o (f.flight.refreshPending P o.store)

def resize (f : SentFlight) (mtu : Nat) : EStateM Err Outbox SentFlight := fun o =>
  renewed f o (f.flight.resize P mtu o.store)

/-- The loop of `writeFlight`. Each turn but the last uses up an outcome that was not
a success, so the number of outcomes bounds the turns. -/
def writeFlightLoop : Nat → SentFlight → EStateM Err Outbox SentFlight
  | 0, _ => throw .datagramTooLarge
  | fuel + 1, f =>
    let (records, wires) := nextUnsentRecords f.records
    recover (do
        onTransport (Transport.writeAll wires)
        pure (f.withRecords records))
      fun err =>
        if err ≠ .datagramTooLarge then throw err
        else do
          let o ← get
          match o.transport.reducePathMTU with
          | none => throw .datagramTooLarge
          | some mtu => do
            modify fun o => { o with transport := { o.transport with pathMTU := mtu } }
            let resized ← resize P (f.withRecords records) mtu
            writeFlightLoop fuel resized

/-- Sends the records the window has room for. -/
def writeFlight (f : SentFlight) : EStateM Err Outbox SentFlight := do
  let o ← get
  writeFlightLoop P (o.transport.outcomes.length + 1) f

def retransmitFlight (f : SentFlight) : EStateM Err Outbox SentFlight := do
  let wires := retransmitRecords f.records 10
  onTransport (Transport.writeAll wires)
  pure { f with retransmitted := f.retransmitted || !wires.isEmpty }

/-- A flight that was acknowledged in part is rebuilt once in its life. -/
def retransmitPartialFlight (f : SentFlight) : EStateM Err Outbox SentFlight := do
  let claimed ← if f.retransmitted then pure f
    else do
      let rebuilt ← refreshPending P { f with retransmitted := true }
      retransmitFlight rebuilt
  writeFlight P claimed

/-- Every third timeout tries a smaller MTU; says whether it did. -/
def prepareFlightRetransmission (f : SentFlight) (timeoutCount : Nat) :
    EStateM Err Outbox (Bool × SentFlight) := do
  let o ← get
  match if 0 < timeoutCount ∧ timeoutCount % 3 = 0 then o.transport.reducePathMTU else none with
  | some mtu => do
    modify fun o => { o with transport := { o.transport with pathMTU := mtu } }
    let resized ← resize P f mtu
    pure (true, resized)
  | none => do
    let rebuilt ← refreshPending P f
    pure (false, rebuilt)

/-- What a timeout does to an outstanding flight. -/
def retransmitAfterTimeout (f : SentFlight) (timeoutCount : Nat) :
    EStateM Err Outbox SentFlight := do
  let (resized, prepared) ← prepareFlightRetransmission P f timeoutCount
  if resized then writeFlight P prepared else retransmitFlight prepared

/-- Rebuilds what is pending and sends it again. -/
def refreshAndRetransmit (f : SentFlight) : EStateM Err Outbox SentFlight := do
  let rebuilt ← refreshPending P f
  retransmitFlight rebuilt

/-! ## A rule for sending a flight -/

/-- What is known while a flight is sent: `I` between the steps, `R` of a flight that was
rebuilt just now, and `F` after a failure. -/
structure FlightRule (P : Primitives) (I R : SentFlight → Outbox → Prop)
    (F : Err → Outbox → Prop) : Prop where
  stops : ∀ {f o}, I f o → F .datagramTooLarge o
  unsent : ∀ {f o}, I f o → let marked := f.withRecords (nextUnsentRecords f.records).1
    wp (onTransport (Transport.writeAll (nextUnsentRecords f.records).2))
      (fun _ => I marked) (fun err next => I marked next ∧ F err next) o
  atMTU : ∀ {f o} (mtu : Nat), I f o →
    I f { o with transport := { o.transport with pathMTU := mtu } }
  resize : ∀ {f o} (mtu : Nat), I f o → wp (resize P f mtu) I F o
  refresh : ∀ {f o}, I f o → wp (refreshPending P f) R F o
  resend : ∀ {f o}, R f o → wp (retransmitFlight f) I F o
  flagged : ∀ {f o} (retransmitted : Bool), I f o → I { f with retransmitted := retransmitted } o

namespace FlightRule

variable {P} {I R : SentFlight → Outbox → Prop} {F : Err → Outbox → Prop} {f : SentFlight}
  {o : Outbox} (hrule : FlightRule P I R F) (hf : I f o)

include hrule hf

theorem wp_writeFlightLoop (fuel : Nat) : wp (writeFlightLoop P fuel f) I F o := by
  induction fuel generalizing f o with
  | zero => exact hrule.stops hf
  | succ fuel ih =>
    unfold writeFlightLoop
    dsimp only
    rw [wp_recover, wp_bind]
    refine wp_mono (hrule.unsent hf) (fun _ _ hmarked => hmarked) ?_
    rintro err failed ⟨hmarked, hfailed⟩
    refine wp_guard hfailed fun _ => ?_
    rw [wp_bind, wp_get]
    cases failed.transport.reducePathMTU with
    | none => exact hrule.stops hmarked
    | some mtu =>
      dsimp only
      rw [wp_bind, wp_modify]
      exact wp_seq (hrule.resize mtu (hrule.atMTU mtu hmarked)) fun _ _ hresized => ih hresized

theorem wp_writeFlight : wp (writeFlight P f) I F o := by
  unfold writeFlight
  rw [wp_bind, wp_get]
  exact hrule.wp_writeFlightLoop hf _

theorem wp_refreshAndRetransmit : wp (refreshAndRetransmit P f) I F o :=
  wp_seq (hrule.refresh hf) fun _ _ hrebuilt => hrule.resend hrebuilt

theorem wp_retransmitPartialFlight : wp (retransmitPartialFlight P f) I F o := by
  unfold retransmitPartialFlight
  split
  · exact hrule.wp_writeFlight hf
  · refine wp_seq (hrule.refresh (hrule.flagged true hf)) fun _ _ hrebuilt => ?_
    exact wp_seq (hrule.resend hrebuilt) fun _ _ hsent => hrule.wp_writeFlight hsent

theorem wp_retransmitAfterTimeout (timeoutCount : Nat) :
    wp (retransmitAfterTimeout P f timeoutCount) I F o := by
  unfold retransmitAfterTimeout prepareFlightRetransmission
  rw [wp_bind, wp_bind, wp_get]
  split
  · rw [wp_bind, wp_modify]
    refine wp_seq (hrule.resize _ (hrule.atMTU _ hf)) fun _ _ hresized => ?_
    exact hrule.wp_writeFlight hresized
  · exact wp_seq (hrule.refresh hf) fun _ _ hrebuilt => hrule.resend hrebuilt

end FlightRule

end Outbox

end Dtls13
