import Dtls13.Driver.Receive
import Dtls13.Handshake.ClientFlight
import Dtls13.Lib.RunSystem

/-! # The server's last receive loop

A server that sent its flight reads the client's, and takes early data along. A step
is the arrival of a datagram, the reading of one record of it, or a timeout; nothing
else arrives until a datagram is read to its end.
-/

namespace Dtls13

open ByteCodec StateLogic HandshakeChannel

/-- `unread` is what is left of the datagram being read; `result` is set when the
loop ended. -/
structure ServerLoop where
  io : HandshakeChannel
  flight : ServerHandshakeState
  unread : Bytes
  timeoutCount : Nat
  result : Option (Except Err Unit)

namespace ServerLoop

inductive Event where
  | arrive (datagram : Bytes)
  | read
  | timeout
  | expire
  deriving DecidableEq, Repr

variable (P : Primitives) (hooks : ServerHooks)

def fail (s : ServerLoop) (err : Err) : ServerLoop := { s with result := some (.error err) }

/-- The next receive call starts without timeouts. -/
def nextCall (s : ServerLoop) : ServerLoop :=
  { s with io := exec beginCall s.io, timeoutCount := 0 }

/-- Messages were delivered, completed by the record `source`. -/
def deliver (s : ServerLoop) (source : RecordNumber) (messages : List CompletedHandshake) :
    ServerLoop :=
  let lastOpened := (s.io.cipher.map (·.lastOpened)).getD 0
  let io := exec (contribute (.acknowledged source ⟨2, lastOpened⟩)) s.io
  handle (ServerHandshakeState.serverBatch hooks messages lastOpened) s.flight
    (fun _ flight => nextCall { s with
      io := io
      flight := flight
      result := if flight.isComplete then some (.ok ()) else none })
    fun err flight => { s with io := io, flight := flight }.fail err

def readNext (s : ServerLoop) : ServerLoop :=
  handle (receiveRecord P s.unread) s.io
    (fun (rest, delivered) io =>
      let next := { s with io := io, unread := rest }
      match delivered with
      | none => next
      | some (source, messages) => next.deliver hooks source messages)
    fun err io => { s with io := io }.fail err

def timedOut (s : ServerLoop) : ServerLoop :=
  let count := s.timeoutCount + 1
  handle (HandshakeChannel.timedOut P count) s.io
    (fun _ io => { s with io := io, timeoutCount := count })
    fun err io => { s with io := io }.fail err

def step (s : ServerLoop) (event : Event) : ServerLoop :=
  if s.result.isSome then s
  else match event with
    | .arrive datagram => if s.unread.isEmpty then { s with unread := datagram } else s
    | .read => if s.unread.isEmpty then s else s.readNext P hooks
    | .timeout => if s.unread.isEmpty then s.timedOut P else s
    | .expire => if s.unread.isEmpty then s.fail .transport else s

end ServerLoop

end Dtls13
