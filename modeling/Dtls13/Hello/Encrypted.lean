import Dtls13.Hello.RoundTrip

/-! # Encrypted ClientHello

A client seals an inner ClientHello into an extension of an outer one. The data
the seal authenticates is the outer hello with zeros in place of the sealed
bytes: the client writes it that way, the server finds the sealed bytes by their
offset and clears them. The server rebuilds the inner hello from the opened
bytes and the extensions of the outer hello they refer to.
-/

namespace Dtls13

open ByteCodec StateLogic WireParser

def echAEADExpansion : Nat := 16

/-- An HPKE sender and its recipient at one sequence number. Both take the
authenticated data first. -/
structure HpkePair where
  sealPayload : Bytes → Bytes → Except Err Bytes
  openPayload : Bytes → Bytes → Except Err Bytes
  open_seal : ∀ {aad plain payload}, sealPayload aad plain = .ok payload →
    openPayload aad payload = .ok plain
  seal_length : ∀ {aad plain payload}, sealPayload aad plain = .ok payload →
    payload.length = plain.length + echAEADExpansion

/-- The part of `echClientContext` that sealing reads. -/
structure ECHSenderContext where
  configID : UInt8
  maxNameLen : UInt8
  encapsulatedKey : Bytes
  kdfID : UInt16
  aeadID : UInt16
  deriving DecidableEq, Repr

/-! ## Extensions with their offsets -/

structure RawClientHelloExtension where
  typ : Nat
  value : Bytes
  valueOffset : Nat
  deriving DecidableEq, Repr

/-- The fields of a hello before its extensions, unchecked. -/
structure RawHead where
  versionRandom : Bytes
  sessionID : Bytes
  legacyCookie : Bytes
  cipherSuites : Bytes
  compression : Bytes
  deriving DecidableEq, Repr

def parseRawHead : WireParser RawHead := do
  let versionRandom ← take (2 + 32)
  let sessionID ← bytes8
  let legacyCookie ← bytes8
  let cipherSuites ← bytes16
  let compression ← bytes8
  pure { versionRandom, sessionID, legacyCookie, cipherSuites, compression }

/-- The offset of the vector of extensions in a hello of `total` bytes, and the
extensions. -/
def parseRawVector (total : Nat) : WireParser (Nat × Bytes) := do
  let _ ← parseRawHead
  let rest ← get
  let extensionBytes ← bytes16
  pure (total - rest.length, extensionBytes)

def extractRawItems (vectorOffset total : Nat) :
    Nat → List RawClientHelloExtension → WireParser (List RawClientHelloExtension)
  | 0, out => pure out
  | fuel + 1, out => do
    let b ← get
    if b = [] then pure out
    else do
      let extension ← parseOrderedExtension
      let rest ← get
      if out.any fun item => item.typ == extension.typ then
        throw (illegalParameter "duplicate ClientHello extension")
      else
        let valueOffset := vectorOffset + 2 + (total - rest.length) - extension.value.length
        extractRawItems vectorOffset total fuel
          (out ++ [⟨extension.typ, extension.value, valueOffset⟩])

def extractRawClientHelloExtensions (body : Bytes) :
    Except Err (List RawClientHelloExtension) := do
  let (vectorOffset, extensionBytes) ← parse (parseRawVector body.length) body
  parse (extractRawItems vectorOffset extensionBytes.length extensionBytes.length [])
    extensionBytes

/-! ## The authenticated data -/

/-- The bytes with `n` of them cleared. -/
def clearBytes (b : Bytes) (offset n : Nat) : Bytes :=
  b.take offset ++ (List.replicate n 0 ++ b.drop (offset + n))

/-- Reads over the fields of an outer extension and its sealed bytes. -/
def skipOuterECH : WireParser Unit := do
  let _ ← take (1 + 2 + 2 + 1)
  let _ ← bytes16
  let _ ← bytes16
  pure ()

/-- The offset in an outer extension after its sealed bytes. -/
def echPayloadEnd (value : Bytes) : Nat :=
  handle skipOuterECH value (fun _ rest => value.length - rest.length)
    fun _ rest => value.length - rest.length

def echOuterAAD (body : Bytes) : Except Err Bytes := do
  let extensions ← extractRawClientHelloExtensions body
  match extensions.find? fun extension => extension.typ == extECH with
  | none => .error errInvalidECHExt
  | some extension =>
    match parseECHExt extension.value with
    | .ok (.outer _ _ _ _ payload) =>
      let payloadOffset := extension.valueOffset + echPayloadEnd extension.value -
        payload.length
      .ok (clearBytes body payloadOffset payload.length)
    | _ => .error errInvalidECHExt

/-! ## The inner hello -/

/-- The zeros after an inner hello of `length` bytes. -/
def innerPadding (serverName : Bytes) (maxNameLength length : Nat) : Nat :=
  let padding :=
    if serverName ≠ [] then maxNameLength - serverName.length else maxNameLength + 9
  padding + (32 - (length + padding) % 32) % 32

def encodeInnerClientHello (inner : ClientHello) (maxNameLength : Nat) : Except Err Bytes := do
  let encoded := { inner with sessionID := [] }
  let body ← encoded.marshal
  let padding := innerPadding inner.serverName maxNameLength body.length
  require (body.length + padding + echAEADExpansion ≤ 65535)
    (.protocolError "EncodedClientHelloInner exceeds ECH payload limit")
  pure (body ++ List.replicate padding 0)

/-- Any failure is reported as an invalid extension. -/
def orInvalid {α : Type} (result : Except Err α) : Except Err α :=
  match result with
  | .ok value => .ok value
  | .error _ => .error errInvalidECHExt

/-- The head of an encoded inner hello, its vector of extensions and the padding. -/
def parseEncodedInner : WireParser (RawHead × Bytes × Bytes) := do
  let head ← parseRawHead
  let b ← get
  let _ ← bytes16
  let rest ← get
  pure (head, b.take (b.length - rest.length), rest)

/-- The extensions of the outer hello with the given types, in their order there. -/
def copyOuterExtensions (outer : List RawClientHelloExtension) :
    List UInt16 → Option Nat → Except Err (List OrderedExtension)
  | [], _ => .ok []
  | typ :: types, last => do
    match outer.findIdx? fun extension => extension.typ == typ.toNat with
    | none => .error errInvalidECHExt
    | some index =>
      require (typ.toNat ≠ extECH ∧ ∀ previous, last = some previous → previous < index)
        errInvalidECHExt
      let rest ← copyOuterExtensions outer types (some index)
      pure (⟨typ.toNat, (outer.getD index ⟨0, [], 0⟩).value⟩ :: rest)

/-- The extensions of the inner hello, with those copied that it only refers to. -/
def expandInnerExtensions (outer : List RawClientHelloExtension) :
    List OrderedExtension → Except Err (List OrderedExtension)
  | [] => .ok []
  | extension :: extensions => do
    let expanded ← if extension.typ ≠ extECHOuterExtensions then .ok [extension]
      else do
        let types ← orInvalid (parse bytes8 extension.value)
        require (2 ≤ types.length ∧ types.length ≤ 254 ∧ types.length % 2 = 0) errInvalidECHExt
        copyOuterExtensions outer (wordsOf types) none
    let rest ← expandInnerExtensions outer extensions
    pure (expanded ++ rest)

def RawHead.bytes (head : RawHead) : Bytes :=
  head.versionRandom ++ (vectorBytes 1 head.sessionID ++ (vectorBytes 1 head.legacyCookie ++
    (vectorBytes 2 head.cipherSuites ++ vectorBytes 1 head.compression)))

/-- The marker of an inner hello. -/
def isInnerMarker (ech : Option Bytes) : Bool :=
  match parseECHExt (ech.getD []) with
  | .ok .inner => true
  | _ => false

def decodeInnerClientHello (distinguishedName : Bytes → Bool) (outer : ClientHello)
    (outerBody encoded : Bytes) : Except Err (ClientHello × Bytes) := do
  let (head, vector, padding) ← handle parseEncodedInner encoded (fun fields _ => .ok fields)
    fun _ _ => .error errInvalidECHExt
  require (head.sessionID = []) errInvalidECHExt
  require (∀ value ∈ padding, value = 0) errInvalidECHExt
  let innerExtensions ← orInvalid (parseOrderedExtensions vector)
  let outerExtensions ← orInvalid (extractRawClientHelloExtensions outerBody)
  let extensions ← expandInnerExtensions outerExtensions innerExtensions
  require (outer.sessionID.length ≤ 255 ∧
    (extensions.flatMap OrderedExtension.bytes).length ≤ 65535) errInvalidECHExt
  let head := { head with sessionID := outer.sessionID }
  let body := head.bytes ++ vectorBytes 2 (extensions.flatMap OrderedExtension.bytes)
  let inner ← orInvalid (parseClientHello distinguishedName body)
  require (isInnerMarker inner.encryptedClientHelloExtension = true) errInvalidECHExt
  pure (inner, body)

/-! ## Sealing and opening -/

def generateOuterECHExt (configID : UInt8) (kdfID aeadID : UInt16) (enc payload : Bytes) :
    Except Err Bytes := do
  require (enc.length ≤ 65535 ∧ payload.length ≤ 65535) overflow16
  pure (UInt8.ofNat echOuterType :: (beBytes 2 kdfID.toNat ++ (beBytes 2 aeadID.toNat ++
    (configID :: (vectorBytes 2 enc ++ vectorBytes 2 payload)))))

def setEncryptedClientHello (hello : ClientHello) (value : Bytes) : ClientHello :=
  { hello with encryptedClientHelloExtension := some value }

/-- The outer hello with the extension that holds `payload`. -/
def marshalOuter (outer : ClientHello) (context : ECHSenderContext) (initial : Bool)
    (payload : Bytes) : Except Err (ClientHello × Bytes) := do
  let enc := if initial then context.encapsulatedKey else []
  let outerECH ← generateOuterECHExt context.configID context.kdfID context.aeadID enc payload
  let outer := setEncryptedClientHello outer outerECH
  let body ← outer.marshal
  pure (outer, body)

/-- The outer hello with the sealed inner one, and its bytes. -/
def computeOuterECH (hpke : HpkePair) (outer inner : ClientHello) (context : ECHSenderContext)
    (initial : Bool) : Except Err (ClientHello × Bytes) := do
  let encoded ← encodeInnerClientHello inner context.maxNameLen.toNat
  let (outer, aad) ← marshalOuter outer context initial
    (List.replicate (encoded.length + echAEADExpansion) 0)
  let payload ← hpke.sealPayload aad encoded
  marshalOuter outer context initial payload

def decryptECHPayload (hpke : HpkePair) (outerBody payload : Bytes) : Except Err Bytes := do
  let aad ← echOuterAAD outerBody
  hpke.openPayload aad payload

end Dtls13
