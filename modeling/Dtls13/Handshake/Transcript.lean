import Dtls13.Handshake.Messages

/-! # Transcripts and the verification of a peer

The handshake messages both sides have seen, and what the code that verifies
certificates and signatures is asked about them. That code is a parameter: its
answers are arbitrary, and so is the text of its errors.
-/

namespace Dtls13

open ByteCodec

/-- The messages that went into a transcript hash. -/
abbrev Transcript := List (UInt8 × Bytes)

namespace Transcript

def add (t : Transcript) (typ : UInt8) (body : Bytes) : Except Err Transcript :=
  if 2 ^ 24 ≤ body.length then .error (.protocolError "handshake message exceeds 24-bit length")
  else .ok (t ++ [(typ, body)])

/-- Adds a message that arrived; an error is ignored. -/
def record (t : Transcript) (typ : UInt8) (body : Bytes) : Transcript :=
  match t.add typ body with
  | .ok next => next
  | .error _ => t

theorem record_eq (t : Transcript) (typ : UInt8) {body : Bytes} (hbody : body.length < 2 ^ 24) :
    t.record typ body = t ++ [(typ, body)] := by
  have hadd : t.add typ body = .ok (t ++ [(typ, body)]) := if_neg (Nat.not_le.mpr hbody)
  rw [record, hadd]

end Transcript

/-- The failure of a callback: the alert it asks for, if any, and its text. -/
abbrev HookResult (α : Type) := Except (Option UInt8 × String) α

def HookResult.run {α : Type} (result : HookResult α) : Except Err α :=
  match result with
  | .ok value => .ok value
  | .error (alert, reason) => .error (.external alert reason)

/-! ## Certificates and signatures -/

inductive CertificateType where
  | x509
  | rawPublicKey
  deriving DecidableEq, Repr

structure CertificateEntry where
  data : Bytes
  ocspResponse : Bytes
  delegatedCredential : Option Bytes
  deriving DecidableEq, Repr

structure CertificateMessage where
  certificates : List CertificateEntry
  deriving DecidableEq, Repr

/-- What a peer authenticates with. -/
structure PeerIdentity where
  certificates : List Bytes
  rawPublicKey : Bytes
  delegatedCredential : Bytes
  deriving DecidableEq, Repr

namespace PeerIdentity

def none : PeerIdentity := ⟨[], [], []⟩

def isPresent (identity : PeerIdentity) : Bool :=
  !identity.certificates.isEmpty || !identity.rawPublicKey.isEmpty

end PeerIdentity

structure CertificateVerifyMessage where
  algorithm : Nat
  signature : Bytes
  deriving DecidableEq, Repr

def parseCertificateVerify (b : Bytes) : Except Err CertificateVerifyMessage :=
  WireParser.parse (do
    let algorithm ← WireParser.u16
    let signature ← WireParser.bytes16
    pure ⟨algorithm, signature⟩) b

def parseFinished (b : Bytes) (hashSize : Nat) : Except Err Bytes :=
  if b.length ≠ hashSize then
    .error (alertError alertDecodeError (.protocolError "invalid Finished length"))
  else .ok b

/-- The verification of what a peer sends. The signature schemes that were offered
and the direction of a signature are fixed for one handshake. -/
structure PeerHooks where
  hashSize : Nat
  verifyRawPublicKeyMessage : CertificateMessage → HookResult Bytes
  verifyCertificateChain : CertificateMessage → HookResult (List Bytes)
  peerDelegatedCredential : CertificateMessage → List Bytes → HookResult Bytes
  verifyPeerAuthenticationSignature :
    PeerIdentity → CertificateVerifyMessage → Transcript → HookResult Unit
  verifyFinished : Transcript → Bytes → Bool

end Dtls13
