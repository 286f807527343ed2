import Dtls13.Crypto.Suite
import Dtls13.Errors
import Dtls13.Lib.StateLogic
import Dtls13.Lib.WallClock

/-! # Cipher suites, external keys and session tickets

What a server looks up when it negotiates: the suite for a number, the external
key for an identity, and the state in a session ticket.
-/

namespace Dtls13

open ByteCodec StateLogic WallClock

/-! ## Cipher suites and groups -/

def CipherSuite.id : CipherSuite → UInt16
  | .aes128GcmSha256 => 0x1301
  | .aes256GcmSha384 => 0x1302
  | .chacha20Poly1305Sha256 => 0x1303
  | .aes128CcmSha256 => 0x1304

def supportedCipherSuites : List CipherSuite :=
  [.aes128GcmSha256, .aes256GcmSha384, .chacha20Poly1305Sha256, .aes128CcmSha256]

def defaultCipherSuites : List UInt16 := supportedCipherSuites.map CipherSuite.id

def cipherSuiteForID (id : UInt16) : Except Err CipherSuite :=
  if id = 0x1301 then .ok .aes128GcmSha256
  else if id = 0x1302 then .ok .aes256GcmSha384
  else if id = 0x1303 then .ok .chacha20Poly1305Sha256
  else if id = 0x1304 then .ok .aes128CcmSha256
  else if id = 0x1305 then
    .error (.plain
      "dtls13: TLS_AES_128_CCM_8_SHA256 requires deployment-specific forgery safeguards")
  else .error (.plain "dtls13: unsupported cipher suite")

def groupX25519 : UInt16 := 29
def groupP256 : UInt16 := 23
def groupP384 : UInt16 := 24
def groupX25519MLKEM768 : UInt16 := 4588
def groupSecP256r1MLKEM768 : UInt16 := 4587
def groupSecP384r1MLKEM1024 : UInt16 := 4589

def supportedKeyExchangeGroup (group : UInt16) : Bool :=
  [groupX25519, groupP256, groupP384, groupX25519MLKEM768, groupSecP256r1MLKEM768,
    groupSecP384r1MLKEM1024].contains group

/-! ## External keys -/

/-- One key for a hash; it may lack the label of its binder. -/
structure ExternalPSKKey where
  wireIdentity : Bytes
  key : Bytes
  hash : HashAlgorithm
  binderLabel : Option Bytes
  digest : Bytes
  deriving DecidableEq, Repr

structure ExternalPSK where
  identity : Bytes
  keys : List ExternalPSKKey
  deriving DecidableEq, Repr

structure ExternalPSKSelection where
  psk : ExternalPSK
  key : ExternalPSKKey
  deriving DecidableEq, Repr

def findExternalPSK (externalPSKs : List ExternalPSK) (wireIdentity : Bytes)
    (hash : HashAlgorithm) : Option ExternalPSKSelection :=
  externalPSKs.findSome? fun psk =>
    (psk.keys.find? fun key => key.hash = hash ∧ key.wireIdentity = wireIdentity).map fun key =>
      ⟨psk, key⟩

/-! ## Session tickets -/

structure ExternalPSKTicketState where
  wire : Bytes
  kdf : UInt16
  digest : Bytes
  deriving DecidableEq, Repr

/-- The state in a session ticket; the time of creation is the word of a signed
number of Unix seconds. What identifies an authenticated client is read by the configured policy
and is left out. -/
structure SessionTicketState where
  createdAt : UInt64
  psk : Bytes
  serverName : Bytes
  protocol : Bytes
  externalPSK : Option ExternalPSKTicketState
  lifetime : UInt32
  ageAdd : UInt32
  maxEarlyData : UInt32
  suite : UInt16
  recordSizeLimit : UInt16
  deriving DecidableEq, Repr

namespace SessionTicketState

def created (state : SessionTicketState) : Instant := Instant.ofUnix state.createdAt.toNat

/-- The lifetime, as a duration. -/
def lifetimeNs (state : SessionTicketState) : Int := state.lifetime.toNat * second

end SessionTicketState

/-- Opening a ticket at a reading of the clock. `decode` opens the seal under the
server's key and parses the state. -/
def openSessionTicket (decode : Bytes → Except Err SessionTicketState) (now : Instant)
    (ticket : Bytes) : Except Err SessionTicketState := do
  let state ← decode ticket
  require (¬ (now.ns + minute < state.created.ns ∨ state.lifetimeNs < now.sub state.created))
    (.plain "dtls13: expired session ticket")
  pure state

end Dtls13
