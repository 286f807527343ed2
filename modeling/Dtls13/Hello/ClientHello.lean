import Mathlib.Data.FinEnum
import Dtls13.Hello.Extensions

/-! # ClientHello messages

The ClientHello with its writer and its reader. The writer first encodes every
part, in the order in which the parts can fail, and then lists the extensions
that are present. The reader takes the extensions in any order and checks how
they depend on each other.
-/

namespace Dtls13

open ByteCodec StateLogic WireParser

/-- Extensions by type, each type once. -/
structure ExtensionMap where
  entries : List (Nat × Bytes)
  nodup : (entries.map Prod.fst).Nodup
  deriving DecidableEq, Repr

namespace ExtensionMap

def empty : ExtensionMap := ⟨[], List.nodup_nil⟩

def get (m : ExtensionMap) (typ : Nat) : Option Bytes := m.entries.lookup typ

def set (m : ExtensionMap) (typ : Nat) (value : Bytes) : ExtensionMap where
  entries := (typ, value) :: m.entries.filter fun entry => entry.1 != typ
  nodup := by
    rw [List.map_cons, List.nodup_cons]
    refine ⟨?_, m.nodup.sublist (List.filter_sublist.map Prod.fst)⟩
    intro hmem
    obtain ⟨entry, hentry, htyp⟩ := List.mem_map.mp hmem
    exact bne_iff_ne.mp (List.mem_filter.mp hentry).2 htyp

theorem lookup_filter_ne {typ other : Nat} (hne : other ≠ typ) (entries : List (Nat × Bytes)) :
    (entries.filter fun entry => entry.1 != typ).lookup other = entries.lookup other := by
  induction entries with
  | nil => rfl
  | cons entry rest ih =>
    by_cases hkey : entry.1 = typ
    · have hother : (other == entry.1) = false := beq_eq_false_iff_ne.mpr (hkey ▸ hne)
      rw [List.filter_cons_of_neg (by simp [hkey]), ih, List.lookup_cons, hother]
    · rw [List.filter_cons_of_pos (by simpa using hkey), List.lookup_cons, List.lookup_cons, ih]

theorem get_set (m : ExtensionMap) (typ other : Nat) (value : Bytes) :
    (m.set typ value).get other = if other = typ then some value else m.get other := by
  unfold get set
  rw [List.lookup_cons]
  by_cases heq : other = typ
  · simp [heq]
  · rw [beq_eq_false_iff_ne.mpr heq, if_neg heq]
    exact lookup_filter_ne heq m.entries

end ExtensionMap

structure SessionTicketRequest where
  enabled : Bool := false
  newSessionCount : UInt8 := 0
  resumptionCount : UInt8 := 0
  deriving DecidableEq, Repr

/-- A ClientHello. Absent metadata and an absent `encrypted_client_hello` differ
from empty ones. A nil value in `unknownExtensions` is no entry for the types whose
writer tests for nil, and an empty value for the others (GREASE and compression). -/
structure ClientHello where
  handshakeMetadata : Option Bytes := none
  random : Vector UInt8 32 := Vector.replicate 32 0
  sessionID : Bytes := []
  encryptedClientHelloExtension : Option Bytes := none
  cookie : Bytes := []
  cipherSuites : List UInt16 := []
  keyShares : List KeyShareEntry := []
  signatureSchemes : List UInt16 := []
  certificateSignatureSchemes : List UInt16 := []
  delegatedCredentialSchemes : List UInt16 := []
  supportedGroups : List UInt16 := []
  serverName : Bytes := []
  alpn : List Bytes := []
  pskIdentity : Bytes := []
  obfuscatedAge : UInt32 := 0
  pskBinder : Bytes := []
  pskIdentities : List PskIdentityEntry := []
  pskBinders : List Bytes := []
  pskDHE : Bool := false
  earlyData : Bool := false
  ticketRequest : SessionTicketRequest := {}
  connectionID : Bytes := []
  hasConnectionID : Bool := false
  returnRoutability : Bool := false
  postHandshakeAuth : Bool := false
  grease : Bool := false
  recordSizeLimit : UInt16 := 0
  hasRecordSizeLimit : Bool := false
  certificateCompressionOffered : Bool := false
  statusRequest : Bool := false
  statusRequestRaw : Bytes := []
  unknownExtensions : ExtensionMap := ExtensionMap.empty
  deriving DecidableEq, Repr

namespace ClientHello

/-! ## Writing -/

/-- The GREASE extension to send: the one the random chooses, or one kept from
another hello. -/
def greaseExtension (h : ClientHello) : Option Nat :=
  if h.grease then some (greaseValue h.random[0])
  else (List.range 16).findSome? fun seed =>
    let grease := greaseValue (UInt8.ofNat seed)
    if (h.unknownExtensions.get grease).isSome then some grease else none

def certificateCompressionAlgorithms (h : ClientHello) : Option Bytes :=
  if !h.certificateCompressionOffered then none
  else
    match h.unknownExtensions.get extCompressCertificate with
    | some raw => (parseCertificateCompressionAlgorithms raw).toOption
    | none => some certificateCompressionZlibOffer

/-- The identities and binders to send, from the list or from the single key. -/
def marshalPSK (h : ClientHello) : Except Err (Option Bytes) :=
  if h.pskIdentities ≠ [] then do
    let psk ← marshalClientPSKs h.pskIdentities h.pskBinders
    pure (some psk)
  else if h.pskIdentity ≠ [] then do
    let psk ← marshalClientPSK h.pskIdentity h.obfuscatedAge h.pskBinder
    pure (some psk)
  else do
    require (h.pskBinder = [] ∧ h.pskBinders = []) (.protocolError "PSK binder without identity")
    pure none

/-- A part that is encoded only if it is sent. -/
def marshalIf (sent : Bool) (value : Except Err Bytes) : Except Err (Option Bytes) :=
  if sent then do
    let b ← value
    pure (some b)
  else .ok none

def marshalMetadata (h : ClientHello) : Except Err (Option Bytes) :=
  match h.handshakeMetadata with
  | none => .ok none
  | some data => marshalIf true (marshalHandshakeMetadata data)

/-- The encoded parts of a hello. -/
structure Parts where
  keyShares : Bytes
  signatures : Bytes
  groups : Bytes
  certificateSignatures : Option Bytes
  serverName : Option Bytes
  alpn : Option Bytes
  cookie : Option Bytes
  connectionID : Option Bytes
  psk : Option Bytes
  certificateCompression : Option Bytes
  delegatedCredential : Option Bytes
  handshakeMetadata : Option Bytes

def parts (h : ClientHello) : Except Err Parts := do
  let keyShares ← marshalKeyShares h.keyShares true
  let signatures ← marshalSignatureSchemes h.signatureSchemes
  let groups ← marshalSupportedGroups h.supportedGroups h.keyShares
  let certificateSignatures ← marshalIf (h.certificateSignatureSchemes ≠ [])
    (marshalSignatureSchemes h.certificateSignatureSchemes)
  let serverName ← marshalServerName h.serverName
  let alpn ← marshalALPN h.alpn
  let cookie ← marshalIf (h.cookie ≠ []) (marshalCookie h.cookie)
  let connectionID ← marshalIf h.hasConnectionID (marshalConnectionID h.connectionID)
  let psk ← h.marshalPSK
  let certificateCompression ← marshalIf h.certificateCompressionOffered
    (marshalCertificateCompressionAlgorithms h.certificateCompressionAlgorithms)
  let delegatedCredential ← marshalIf (h.delegatedCredentialSchemes ≠ [])
    (marshalSignatureSchemes h.delegatedCredentialSchemes)
  let handshakeMetadata ← h.marshalMetadata
  pure { keyShares, signatures, groups, certificateSignatures, serverName, alpn, cookie,
         connectionID, psk, certificateCompression, delegatedCredential, handshakeMetadata }

/-- An extension without a value, sent if a flag is set. -/
def flag (set : Bool) : Option Bytes := if set then some [] else none

/-- Every extension a hello can have, in the order of sending, with its value if
it is sent. -/
def extensionTable (h : ClientHello) (p : Parts) : List (Nat × Option Bytes) := [
  (extServerName, p.serverName), (extSupportedGroups, some p.groups),
  (extSignatureAlgorithms, some p.signatures),
  (extSignatureAlgorithmsCert, p.certificateSignatures),
  (extDelegatedCredential, p.delegatedCredential),
  (extCertificateAuthorities, h.unknownExtensions.get extCertificateAuthorities),
  (extClientCertificateType, h.unknownExtensions.get extClientCertificateType),
  (extServerCertificateType, h.unknownExtensions.get extServerCertificateType),
  (extCachedInfo, h.unknownExtensions.get extCachedInfo), (extALPN, p.alpn),
  (extCompressCertificate, p.certificateCompression),
  (extStatusRequest, if h.statusRequest then some marshalStatusRequest else none),
  (extRecordSizeLimit,
    if h.hasRecordSizeLimit then some (beBytes 2 h.recordSizeLimit.toNat) else none),
  (extSupportedVersions, some clientSupportedVersions), (extCookie, p.cookie),
  (extKeyShare, some p.keyShares), (extPostHandshakeAuth, flag h.postHandshakeAuth),
  (extTicketRequest, if h.ticketRequest.enabled then
    some [h.ticketRequest.newSessionCount, h.ticketRequest.resumptionCount] else none),
  (extConnectionID, p.connectionID), (extReturnRoutability, flag h.returnRoutability),
  (extEarlyData, flag h.earlyData), (extECH, h.encryptedClientHelloExtension),
  (h.greaseExtension.getD (greaseValue 0), flag h.greaseExtension.isSome),
  (extHandshakeMetadata, p.handshakeMetadata), (extPSKKeyExchangeModes,
    if p.psk.isSome || h.pskDHE then some marshalPSKKeyExchangeModes else none),
  (extPreSharedKey, p.psk)]

/-- The extensions of a table that have a value. -/
def present (table : List (Nat × Option Bytes)) : List OrderedExtension :=
  table.filterMap fun entry => entry.2.map (OrderedExtension.mk entry.1)

/-- The message up to the extensions. -/
def head (h : ClientHello) : Bytes :=
  beBytes 2 dtlsLegacyVersion ++ (h.random.toList ++ (vectorBytes 1 h.sessionID ++
    (vectorBytes 1 [] ++ (vectorBytes 2 (wordBytes h.cipherSuites) ++ vectorBytes 1 [0]))))

def marshal (h : ClientHello) : Except Err Bytes := do
  require (h.cipherSuites ≠ []) (.protocolError "ClientHello has no cipher suites")
  require (h.hasRecordSizeLimit = true → minRecordSizeLimit ≤ h.recordSizeLimit.toNat ∧
    h.recordSizeLimit.toNat ≤ defaultRecordSizeLimit) (.protocolError "invalid record_size_limit")
  let p ← h.parts
  let extensions := present (h.extensionTable p)
  require ((∀ e ∈ extensions, e.value.length ≤ 65535) ∧
    (extensions.flatMap OrderedExtension.bytes).length ≤ 65535) overflow16
  require (h.sessionID.length ≤ 255) overflow8
  require (h.cipherSuites.length ≤ 65535 / 2) overflow16
  pure (h.head ++ vectorBytes 2 (extensions.flatMap OrderedExtension.bytes))

end ClientHello

/-! ## Reading -/

def orderedExtensionValue (items : List OrderedExtension) (typ : Nat) : Option Bytes :=
  (items.find? fun item => item.typ == typ).map OrderedExtension.value

/-- The fields of a hello before its extensions, and the bytes of the extensions. -/
structure HelloFields where
  random : Bytes
  sessionID : Bytes
  legacyCookie : Bytes
  suites : Bytes
  compression : Bytes
  extensions : Bytes
  deriving DecidableEq, Repr

def parseHelloFields : WireParser HelloFields := do
  let random ← take 32
  let sessionID ← bytes8
  let legacyCookie ← bytes8
  let suites ← bytes16
  let compression ← bytes8
  let rest ← get
  let extensions ← take rest.length
  pure { random, sessionID, legacyCookie, suites, compression, extensions }

/-- What a first pass over the extensions finds. -/
structure ScannedExtensions where
  handshakeMetadata : Option Bytes
  delegatedCredentialSchemes : List UInt16
  grease : Bool
  unknownExtensions : ExtensionMap

/-- The extensions that are read by type after the first pass. -/
def readByType : List Nat :=
  [extServerName, extSupportedGroups, extSignatureAlgorithms, extSignatureAlgorithmsCert,
    extCertificateAuthorities, extALPN, extPadding, extCompressCertificate, extRecordSizeLimit,
    extSupportedVersions, extCookie, extKeyShare, extPostHandshakeAuth, extConnectionID,
    extTicketRequest, extReturnRoutability, extEarlyData, extPSKKeyExchangeModes, extPreSharedKey,
    extECH, extStatusRequest]

def scanExtension (first : UInt8) (s : ScannedExtensions) (e : OrderedExtension) :
    Except Err ScannedExtensions :=
  if e.typ ∈ readByType then .ok s
  else if e.typ = extOIDFilters then
    .error (illegalParameter "oid_filters is not permitted in ClientHello")
  else if e.typ = extHandshakeMetadata then do
    let data ← parseHandshakeMetadata e.value
    pure { s with handshakeMetadata := some data }
  else if e.typ = extDelegatedCredential then do
    let schemes ← parseSignatureSchemes e.value
    pure { s with delegatedCredentialSchemes := schemes }
  else if e.typ = extCachedInfo then do
    let _ ← parseCachedInformationOffer e.value
    pure { s with unknownExtensions := s.unknownExtensions.set e.typ e.value }
  else if e.typ = extClientCertificateType ∨ e.typ = extServerCertificateType then do
    let _ ← parseCertificateTypes e.value
    pure { s with unknownExtensions := s.unknownExtensions.set e.typ e.value }
  else if e.typ = greaseValue first ∧ e.value = [] then .ok { s with grease := true }
  else .ok { s with unknownExtensions := s.unknownExtensions.set e.typ e.value }

/-- An extension that may be absent. -/
def parseField {α : Type} (exts : List OrderedExtension) (typ : Nat) (default : α)
    (parse : Bytes → Except Err α) : Except Err α :=
  match orderedExtensionValue exts typ with
  | none => .ok default
  | some raw => parse raw

/-- A flag is an extension without a value. -/
def parseFlag (text : String) (raw : Bytes) : Except Err Bool := do
  require (raw = []) (decodeError text)
  pure true

def parseECHField (raw : Bytes) : Except Err (Option Bytes) :=
  match parseECHExt raw with
  | .ok _ => .ok (some raw)
  | .error err =>
    .error (alertError (if err = errInvalidECHExt then alertIllegalParameter
      else alertDecodeError) err)

def parseVersionsField (exts : List OrderedExtension) : Except Err Unit :=
  match orderedExtensionValue exts extSupportedVersions with
  | none => .error (alertError alertProtocolVersion
      (.protocolError "ClientHello has no supported_versions extension"))
  | some raw => do
    let offered ← parseClientSupportedVersions raw
    require (offered = true) (alertError alertProtocolVersion
      (.protocolError "ClientHello does not offer DTLS 1.3"))

/-- The key shares follow the order of the groups. -/
def orderedSubset : List UInt16 → List KeyShareEntry → Bool
  | _, [] => true
  | [], _ :: _ => false
  | group :: groups, share :: shares =>
    if group = share.group then orderedSubset groups shares
    else orderedSubset groups (share :: shares)

def parseTicketRequest (raw : Bytes) : Except Err SessionTicketRequest :=
  match raw with
  | [newSessionCount, resumptionCount] => .ok ⟨true, newSessionCount, resumptionCount⟩
  | _ => .error (decodeError "invalid ticket_request extension length")

/-- Whether compression is offered, and the offer if it is not the usual one. -/
def parseCompressionField (raw : Bytes) : Except Err (Bool × Option Bytes) := do
  let _ ← parseCertificateCompressionAlgorithms raw
  pure (true, if raw = certificateCompressionZlibOffer then none else some raw)

def parseStatusField (raw : Bytes) : Except Err (Bool × Bytes) := do
  let offered ← parseStatusRequest raw
  pure (offered, raw)

def parsePadding (raw : Bytes) : Except Err Unit :=
  require (∀ value ∈ raw, value = 0)
    (illegalParameter "ClientHello padding contains non-zero data")

def parsePSKField (exts : List OrderedExtension) (raw : Bytes) :
    Except Err (List PskIdentityEntry × List Bytes) := do
  require (exts.getLast?.map OrderedExtension.typ = some extPreSharedKey)
    (.protocolError "pre_shared_key must be the last ClientHello extension")
  require ((orderedExtensionValue exts extPSKKeyExchangeModes).isSome)
    (missingExtension "pre_shared_key without psk_key_exchange_modes")
  parseClientPSKs raw

def parseClientHello (distinguishedName : Bytes → Bool) (b : Bytes) : Except Err ClientHello := do
  require (b.take 2 = beBytes 2 dtlsLegacyVersion)
    (.protocolError "invalid ClientHello legacy version")
  let fields ← parse parseHelloFields (b.drop 2)
  require (fields.legacyCookie = [])
    (illegalParameter "DTLS 1.3 ClientHello legacy_cookie must be empty")
  require (fields.sessionID.length ≤ 32 ∧ 2 ≤ fields.suites.length ∧ fields.suites.length % 2 = 0 ∧
    fields.compression = [0]) (decodeError "invalid ClientHello legacy fields")
  let random : Vector UInt8 32 := Vector.ofFn fun i => fields.random.getD i 0
  let exts ← parseOrderedExtensions fields.extensions
  let scanned ← exts.foldlM (scanExtension random[0]) ⟨none, [], false, ExtensionMap.empty⟩
  require (orderedExtensionValue exts extECHOuterExtensions = none)
    (illegalParameter "ech_outer_extensions is only valid in EncodedClientHelloInner")
  let ech ← parseField exts extECH none parseECHField
  parseVersionsField exts
  let signatureSchemes ← parseField exts extSignatureAlgorithms [] parseSignatureSchemes
  let certificateSignatureSchemes ←
    parseField exts extSignatureAlgorithmsCert [] parseSignatureSchemes
  let authorities ← parseField exts extCertificateAuthorities none fun raw => do
    let _ ← forEachCertificateAuthority distinguishedName raw
    pure (some raw)
  let hasGroups := (orderedExtensionValue exts extSupportedGroups).isSome
  require (hasGroups = (orderedExtensionValue exts extKeyShare).isSome)
    (missingExtension "supported_groups and key_share must be offered together")
  let supportedGroups ← parseField exts extSupportedGroups [] parseSupportedGroups
  let keyShares ← parseField exts extKeyShare [] fun raw => parseKeyShares raw true
  require (orderedSubset supportedGroups keyShares = true)
    (illegalParameter "key_share groups are not an ordered subset of supported_groups")
  let serverName ← parseField exts extServerName [] parseServerName
  let alpn ← parseField exts extALPN [] parseALPN
  let ticketRequest ← parseField exts extTicketRequest {} parseTicketRequest
  let compression ← parseField exts extCompressCertificate (false, none) parseCompressionField
  let recordSizeLimit ← parseField exts extRecordSizeLimit none fun raw => do
    let limit ← parseRecordSizeLimit raw false
    pure (some limit)
  let status ← parseField exts extStatusRequest (false, []) parseStatusField
  let cookie ← parseField exts extCookie [] parseCookie
  let connectionID ← parseField exts extConnectionID none fun raw => do
    let connectionID ← parseConnectionID raw
    pure (some connectionID)
  let returnRoutability ← parseField exts extReturnRoutability false
    (parseFlag "invalid rrc extension length")
  let postHandshakeAuth ← parseField exts extPostHandshakeAuth false
    (parseFlag "invalid post_handshake_auth extension length")
  let earlyData ← parseField exts extEarlyData false
    (parseFlag "invalid early_data extension length")
  parseField exts extPadding () parsePadding
  let pskDHE ← parseField exts extPSKKeyExchangeModes false parsePSKKeyExchangeModes
  let psk ← parseField exts extPreSharedKey ([], []) (parsePSKField exts)
  let pskIdentity := (psk.1.head?.map PskIdentityEntry.identity).getD []
  require (earlyData = true → pskIdentity ≠ [])
    (.protocolError "early_data without pre_shared_key")
  require (pskIdentity = [] → signatureSchemes ≠ [])
    (missingExtension "certificate ClientHello has no signature_algorithms")
  require (pskIdentity = [] → hasGroups = true)
    (missingExtension "certificate ClientHello has no supported_groups or key_share")
  let known := match authorities with
    | some raw => scanned.unknownExtensions.set extCertificateAuthorities raw
    | none => scanned.unknownExtensions
  pure {
    handshakeMetadata := scanned.handshakeMetadata
    random := random
    sessionID := fields.sessionID
    encryptedClientHelloExtension := ech
    cookie := cookie
    cipherSuites := wordsOf fields.suites
    keyShares := keyShares
    signatureSchemes := signatureSchemes
    certificateSignatureSchemes := certificateSignatureSchemes
    delegatedCredentialSchemes := scanned.delegatedCredentialSchemes
    supportedGroups := supportedGroups
    serverName := serverName
    alpn := alpn
    pskIdentity := pskIdentity
    obfuscatedAge := (psk.1.head?.map PskIdentityEntry.obfuscatedAge).getD 0
    pskBinder := psk.2.headD []
    pskIdentities := psk.1
    pskBinders := psk.2
    pskDHE := pskDHE
    earlyData := earlyData
    ticketRequest := ticketRequest
    connectionID := connectionID.getD []
    hasConnectionID := connectionID.isSome
    returnRoutability := returnRoutability
    postHandshakeAuth := postHandshakeAuth
    grease := scanned.grease
    recordSizeLimit := recordSizeLimit.getD 0
    hasRecordSizeLimit := recordSizeLimit.isSome
    certificateCompressionOffered := compression.1
    statusRequest := status.1
    statusRequestRaw := status.2
    unknownExtensions := match compression.2 with
      | some raw => known.set extCompressCertificate raw
      | none => known }

end Dtls13
