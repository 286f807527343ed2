import Dtls13.Handshake.Messages
import Dtls13.Record.Plain

/-! # The extensions of a ClientHello

The values of the extensions a ClientHello carries, each with its writer and its
reader. A writer that succeeds has kept the lengths of its vectors, so the
reader gives back what was written.
-/

namespace Dtls13

open ByteCodec StateLogic WireParser NewConnectionIDMessage List

def extServerName : Nat := 0
def extStatusRequest : Nat := 5
def extSupportedGroups : Nat := 10
def extSignatureAlgorithms : Nat := 13
def extALPN : Nat := 16
def extClientCertificateType : Nat := 19
def extServerCertificateType : Nat := 20
def extPadding : Nat := 21
def extCachedInfo : Nat := 25
def extCompressCertificate : Nat := 27
def extRecordSizeLimit : Nat := 28
def extDelegatedCredential : Nat := 34
def extPreSharedKey : Nat := 41
def extSupportedVersions : Nat := 43
def extCookie : Nat := 44
def extPSKKeyExchangeModes : Nat := 45
def extCertificateAuthorities : Nat := 47
def extOIDFilters : Nat := 48
def extPostHandshakeAuth : Nat := 49
def extSignatureAlgorithmsCert : Nat := 50
def extKeyShare : Nat := 51
def extConnectionID : Nat := 54
def extTicketRequest : Nat := 58
def extReturnRoutability : Nat := 61
def extECHOuterExtensions : Nat := 0xfd00
def extECH : Nat := 0xfe0d
def extHandshakeMetadata : Nat := 0xff02

def versionDTLS13 : Nat := 0xfefc
def alertProtocolVersion : UInt8 := 70

def overflow8 : Err := .protocolError "8-bit vector overflow"
def overflow16 : Err := .protocolError "16-bit vector overflow"

def decodeError (text : String) : Err := alertError alertDecodeError (.protocolError text)
def illegalParameter (text : String) : Err := alertError alertIllegalParameter (.protocolError text)
def missingExtension (text : String) : Err := alertError alertMissingExtension (.protocolError text)

namespace WireParser

/-- Any failure of the parser is reported as `err`. -/
def orError {α : Type} (p : WireParser α) (err : Err) : WireParser α := fun b =>
  match p b with
  | .ok value rest => .ok value rest
  | .error _ rest => .error err rest

/-- Items up to the end of the input, where an item may depend on those before it. -/
def scan {α : Type} (item : List α → WireParser α) : Nat → List α → WireParser (List α)
  | 0, seen => pure seen
  | fuel + 1, seen => do
    let b ← get
    if b = [] then pure seen
    else do
      let next ← item seen
      scan item fuel (seen ++ [next])

/-- On an input that starts with `b` the parser reads `value` or fails. -/
def MayRead {α : Type} (p : WireParser α) (b : Bytes) (value : α) : Prop :=
  ∀ rest result final, p (b ++ rest) = .ok result final → result = value ∧ final = rest

theorem Reads.orError {α : Type} {p : WireParser α} {b : Bytes} {value : α} (hp : Reads p b value)
    (err : Err) : Reads (p.orError err) b value := by
  intro rest
  simp only [WireParser.orError, hp rest]

/-- A check after an item. -/
theorem Reads.mayRead_check {α : Type} {p : WireParser α} {b : Bytes} {value : α}
    (hp : Reads p b value) (check : α → WireParser Unit)
    (hcheck : ∀ s final, check value s = .ok () final → final = s) :
    MayRead (do let x ← p; check x; pure x) b value := by
  intro rest result final hok
  rw [hp.bind_eq] at hok
  change EStateM.bind (check value) _ _ = _ at hok
  unfold EStateM.bind at hok
  split at hok
  next u s hs =>
    cases hok
    exact ⟨rfl, hcheck _ _ hs⟩
  next => cases hok

/-- What was written one item after the other is read back, unless a check of
an item fails. -/
theorem eq_of_scan {α : Type} {item : List α → WireParser α} {encode : α → Bytes}
    {values seen result : List α} {fuel : Nat} {final : Bytes}
    (hitem : ∀ before, ∀ value ∈ values, MayRead (item before) (encode value) value)
    (hne : ∀ value ∈ values, encode value ≠ []) (hfuel : values.length ≤ fuel)
    (hok : scan item fuel seen (values.flatMap encode) = .ok result final) :
    result = seen ++ values := by
  induction values generalizing seen fuel with
  | nil =>
    have hend : scan item fuel seen [] = .ok seen [] := by cases fuel <;> rfl
    rw [flatMap_nil, hend] at hok
    cases hok
    simp
  | cons first values ih =>
    cases fuel with
    | zero => simp at hfuel
    | succ fuel =>
      have hinput : encode first ++ values.flatMap encode ≠ [] := by
        simp [hne first mem_cons_self]
      rw [flatMap_cons] at hok
      change (if encode first ++ values.flatMap encode = [] then pure seen else
        item seen >>= fun next => scan item fuel (seen ++ [next]) :
          WireParser (List α)) _ = _ at hok
      rw [if_neg hinput] at hok
      change EStateM.bind (item seen) _ _ = _ at hok
      unfold EStateM.bind at hok
      split at hok
      next next rest hnext =>
        obtain ⟨rfl, rfl⟩ := hitem seen first mem_cons_self _ _ _ hnext
        have hrest := ih (fun before value hv => hitem before value (mem_cons_of_mem _ hv))
          (fun value hv => hne value (mem_cons_of_mem _ hv))
          (Nat.le_of_succ_le_succ hfuel) hok
        simpa using hrest
      next => cases hok

end WireParser

/-! ## Lists of sixteen-bit words -/

/-- Sixteen-bit words one after the other. -/
def wordBytes (words : List UInt16) : Bytes := words.flatMap fun word => beBytes 2 word.toNat

def wordsOf : Bytes → List UInt16
  | high :: low :: rest => UInt16.ofNat (beNat [high, low]) :: wordsOf rest
  | _ => []

@[simp] theorem wordBytes_length (words : List UInt16) :
    (wordBytes words).length = 2 * words.length := by
  simp [wordBytes, Nat.mul_comm]

@[simp] theorem wordsOf_wordBytes (words : List UInt16) : wordsOf (wordBytes words) = words := by
  induction words with
  | nil => rfl
  | cons word rest ih =>
    have hword : beNat (beBytes 2 word.toNat) = word.toNat :=
      beNat_beBytes 2 word.toNat_lt
    have hbytes : wordBytes (word :: rest) = beBytes 2 word.toNat ++ wordBytes rest := rfl
    simp only [beBytes] at hword
    rw [hbytes]
    simp only [beBytes, cons_append, nil_append, wordsOf, hword, ih, UInt16.ofNat_toNat]

/-- A list of words with its length, as signature schemes and groups have it. -/
def marshalWords (words : List UInt16) : Except Err Bytes := do
  require (words.length ≤ 65535 / 2) overflow16
  pure (vectorBytes 2 (wordBytes words))

def parseWords (text : String) (b : Bytes) : Except Err (List UInt16) := do
  let raw ← parse bytes16 b
  require (2 ≤ raw.length ∧ raw.length % 2 = 0) (decodeError text)
  pure (wordsOf raw)

variable {b : Bytes}

theorem parseWords_marshalWords {words : List UInt16} {text : String}
    (hwords : words ≠ []) (hb : marshalWords words = .ok b) : parseWords text b = .ok words := by
  obtain ⟨_, hlength, hb⟩ := bind_eq_ok.mp hb
  cases hb
  rw [require_eq_ok] at hlength
  have hpos := length_pos_iff.mpr hwords
  have hfits : (wordBytes words).length < 256 ^ 2 := by
    rw [wordBytes_length]
    omega
  have hcheck : 2 ≤ (wordBytes words).length ∧ (wordBytes words).length % 2 = 0 := by
    rw [wordBytes_length]
    omega
  rw [parseWords, bytes16, (reads_vector hfits).parse_eq, ok_bind,
    require_of hcheck, ok_bind, wordsOf_wordBytes]
  rfl

/-! ## Signature schemes, groups and key shares -/

def defaultSignatureSchemes : List UInt16 :=
  [0x0807, 0x0403, 0x0804, 0x0503, 0x0805, 0x0603, 0x0806, 0x0401, 0x0501, 0x0601]

/-- The schemes an empty list stands for. -/
def orDefaultSchemes (schemes : List UInt16) : List UInt16 :=
  if schemes = [] then defaultSignatureSchemes else schemes

def marshalSignatureSchemes (schemes : List UInt16) : Except Err Bytes :=
  marshalWords (orDefaultSchemes schemes)

def parseSignatureSchemes (b : Bytes) : Except Err (List UInt16) :=
  parseWords "invalid signature_algorithms extension length" b

structure KeyShareEntry where
  group : UInt16
  data : Bytes
  deriving DecidableEq, Repr

/-- The groups an empty list stands for. -/
def orKeyShareGroups (groups : List UInt16) (shares : List KeyShareEntry) : List UInt16 :=
  if groups = [] then shares.map KeyShareEntry.group else groups

def marshalSupportedGroups (groups : List UInt16) (shares : List KeyShareEntry) :
    Except Err Bytes := do
  require (orKeyShareGroups groups shares ≠ []) (.protocolError "empty supported_groups")
  marshalWords (orKeyShareGroups groups shares)

def parseSupportedGroups (b : Bytes) : Except Err (List UInt16) :=
  parseWords "invalid supported_groups extension length" b

theorem orDefaultSchemes_ne_nil (schemes : List UInt16) : orDefaultSchemes schemes ≠ [] := by
  unfold orDefaultSchemes
  split
  · decide
  · assumption

theorem parseSignatureSchemes_marshal {schemes : List UInt16}
    (hb : marshalSignatureSchemes schemes = .ok b) :
    parseSignatureSchemes b = .ok (orDefaultSchemes schemes) :=
  parseWords_marshalWords (orDefaultSchemes_ne_nil schemes) hb

theorem parseSupportedGroups_marshal {groups : List UInt16} {shares : List KeyShareEntry}
    (hb : marshalSupportedGroups groups shares = .ok b) :
    parseSupportedGroups b = .ok (orKeyShareGroups groups shares) := by
  obtain ⟨_, hne, hb⟩ := bind_eq_ok.mp hb
  exact parseWords_marshalWords (require_eq_ok.mp hne) hb

def KeyShareEntry.bytes (share : KeyShareEntry) : Bytes :=
  beBytes 2 share.group.toNat ++ vectorBytes 2 share.data

def marshalKeyShares (shares : List KeyShareEntry) (vector : Bool) : Except Err Bytes := do
  require (∀ share ∈ shares, share.data.length ≤ 65535) overflow16
  let entries := shares.flatMap KeyShareEntry.bytes
  require (vector = true → entries.length ≤ 65535) overflow16
  pure (if vector then vectorBytes 2 entries else entries)

def parseKeyShareFields : WireParser KeyShareEntry := do
  let group ← u16
  let data ← bytes16
  pure ⟨UInt16.ofNat group, data⟩

/-- A share must not be empty, and its group must not have occurred. -/
def checkKeyShare (seen : List KeyShareEntry) (share : KeyShareEntry) : WireParser Unit :=
  if share.data = [] then throw (decodeError "empty key share")
  else if seen.any fun other => other.group == share.group then
    throw (illegalParameter "duplicate key_share group")
  else pure ()

def parseKeyShare (seen : List KeyShareEntry) : WireParser KeyShareEntry := do
  let share ← parseKeyShareFields
  checkKeyShare seen share
  pure share

def parseKeyShares (b : Bytes) (vector : Bool) : Except Err (List KeyShareEntry) := do
  let entries ← if vector then parse bytes16 b else .ok b
  let shares ← parse (scan parseKeyShare entries.length []) entries
  require (vector = true ∨ shares ≠ []) (decodeError "empty key share list")
  pure shares

theorem reads_parseKeyShareFields {share : KeyShareEntry} (hdata : share.data.length ≤ 65535) :
    Reads parseKeyShareFields share.bytes share := by
  apply Reads.bind (reads_uint share.group.toNat_lt)
  have hread : Reads bytes16 (vectorBytes 2 share.data) share.data :=
    reads_vector (by omega)
  have hshare := hread.map (KeyShareEntry.mk (UInt16.ofNat share.group.toNat))
  rw [UInt16.ofNat_toNat] at hshare ⊢
  exact hshare

theorem checkKeyShare_state {seen : List KeyShareEntry} {share : KeyShareEntry} {s final : Bytes}
    (hok : checkKeyShare seen share s = .ok () final) : final = s := by
  unfold checkKeyShare at hok
  split at hok
  · cases hok
  · split at hok <;> cases hok
    rfl

/-- Key shares that are read at all are read as they were written. -/
theorem eq_of_parseKeyShares {shares result : List KeyShareEntry}
    (hb : marshalKeyShares shares true = .ok b) (hok : parseKeyShares b true = .ok result) :
    result = shares := by
  obtain ⟨_, hdata, hb⟩ := bind_eq_ok.mp hb
  obtain ⟨_, hlength, hb⟩ := bind_eq_ok.mp hb
  cases hb
  rw [require_eq_ok] at hdata hlength
  have hfits : (shares.flatMap KeyShareEntry.bytes).length < 256 ^ 2 :=
    Nat.lt_succ_of_le (hlength rfl)
  obtain ⟨entries, hentries, hok⟩ := bind_eq_ok.mp hok
  rw [if_pos rfl, bytes16, (reads_vector hfits).parse_eq] at hentries
  cases hentries
  obtain ⟨scanned, hscan, hok⟩ := bind_eq_ok.mp hok
  obtain ⟨_, _, hok⟩ := bind_eq_ok.mp hok
  cases hok
  have hne : ∀ share : KeyShareEntry, share.bytes ≠ [] := by simp [KeyShareEntry.bytes, beBytes]
  have hitem : ∀ before, ∀ share ∈ shares,
      WireParser.MayRead (parseKeyShare before) share.bytes share := by
    intro before share hshare
    exact (reads_parseKeyShareFields (hdata share hshare)).mayRead_check _
      fun _ _ => checkKeyShare_state
  exact eq_of_scan hitem (fun share _ => hne share)
    (length_le_length_flatMap shares hne) (eq_ok_of_parse hscan)

/-! ## Names and opaque values -/

/-- An empty name is not sent. -/
def marshalServerName (name : Bytes) : Except Err (Option Bytes) :=
  if name = [] then .ok none
  else do
    require (name.length ≤ 65535 - 3) overflow16
    pure (some (vectorBytes 2 (beBytes 1 0 ++ vectorBytes 2 name)))

def parseServerNameEntry : WireParser Bytes := do
  let typ ← u8
  if typ ≠ 0 then throw (.protocolError "unsupported server name type") else bytes16

def parseServerName (b : Bytes) : Except Err Bytes := do
  let raw ← parse bytes16 b
  let name ← parse parseServerNameEntry raw
  require (name ≠ []) (decodeError "empty server name")
  pure name

theorem marshalServerName_eq_ok {name : Bytes} {value : Option Bytes}
    (hvalue : marshalServerName name = .ok value) :
    name = [] ∧ value = none ∨ ∃ b, value = some b ∧ parseServerName b = .ok name := by
  unfold marshalServerName at hvalue
  split at hvalue
  next hempty => exact .inl ⟨hempty, (Except.ok.inj hvalue).symm⟩
  next hne =>
    obtain ⟨_, hlength, hvalue⟩ := bind_eq_ok.mp hvalue
    cases hvalue
    rw [require_eq_ok] at hlength
    refine .inr ⟨_, rfl, ?_⟩
    have hentry : Reads parseServerNameEntry (beBytes 1 0 ++ vectorBytes 2 name) name :=
      (reads_uint (by decide)).bind (reads_vector (by omega))
    have hraw : (beBytes 1 0 ++ vectorBytes 2 name).length < 256 ^ 2 := by
      simp only [length_append, beBytes_length, vectorBytes]
      omega
    rw [parseServerName, bytes16, (reads_vector hraw).parse_eq, ok_bind,
      hentry.parse_eq, ok_bind, require_of hne]
    rfl

def checkProtocol (protocol : Bytes) : Except Err Unit := do
  require (protocol ≠ []) (.protocolError "empty ALPN protocol")
  require (protocol.length ≤ 255) overflow8

/-- An empty list of protocols is not sent. -/
def marshalALPN (protocols : List Bytes) : Except Err (Option Bytes) :=
  if protocols = [] then .ok none
  else do
    protocols.forM checkProtocol
    let entries := protocols.flatMap (vectorBytes 1)
    require (entries.length ≤ 65535) overflow16
    pure (some (vectorBytes 2 entries))

def parseProtocol : WireParser Bytes := do
  let protocol ← bytes8
  if protocol = [] then throw (decodeError "empty ALPN protocol") else pure protocol

def parseALPN (b : Bytes) : Except Err (List Bytes) := do
  let raw ← parse bytes16 b
  require (raw ≠ []) (decodeError "empty ALPN protocol list")
  parse (items parseProtocol raw.length) raw

theorem checkProtocol_eq_ok {protocol : Bytes} (hok : checkProtocol protocol = .ok ()) :
    protocol ≠ [] ∧ protocol.length ≤ 255 := by
  obtain ⟨_, hne, hlength⟩ := bind_eq_ok.mp hok
  exact ⟨require_eq_ok.mp hne, require_eq_ok.mp hlength⟩

theorem reads_parseProtocol {protocol : Bytes} (hne : protocol ≠ [])
    (hlength : protocol.length ≤ 255) : Reads parseProtocol (vectorBytes 1 protocol) protocol := by
  have hread : Reads bytes8 (vectorBytes 1 protocol) protocol :=
    reads_vector (by omega)
  intro rest
  rw [parseProtocol, hread.bind_eq, if_neg hne]
  rfl

theorem marshalALPN_eq_ok {protocols : List Bytes} {value : Option Bytes}
    (hvalue : marshalALPN protocols = .ok value) :
    protocols = [] ∧ value = none ∨ ∃ b, value = some b ∧ parseALPN b = .ok protocols := by
  unfold marshalALPN at hvalue
  split at hvalue
  next hempty => exact .inl ⟨hempty, (Except.ok.inj hvalue).symm⟩
  next hne =>
    obtain ⟨_, hchecks, hvalue⟩ := bind_eq_ok.mp hvalue
    obtain ⟨_, hlength, hvalue⟩ := bind_eq_ok.mp hvalue
    cases hvalue
    rw [require_eq_ok] at hlength
    have hall := fun p hp => checkProtocol_eq_ok (forM_eq_ok.mp hchecks p hp)
    have hcons := vectorBytes_ne_nil
    have hraw : protocols.flatMap (vectorBytes 1) ≠ [] := by
      intro hnil
      exact hne (eq_nil_iff_forall_not_mem.mpr fun p hp =>
        hcons p (flatMap_eq_nil_iff.mp hnil p hp))
    refine .inr ⟨_, rfl, ?_⟩
    rw [parseALPN, bytes16,
      (reads_vector (Nat.lt_succ_of_le hlength)).parse_eq, ok_bind, require_of hraw, ok_bind]
    apply parse_eq_ok
    apply items_flatMap _ (fun p _ => hcons p)
      (length_le_length_flatMap protocols hcons)
    intro p hp
    exact reads_parseProtocol (hall p hp).1 (hall p hp).2

def marshalCookie (cookie : Bytes) : Except Err Bytes := do
  require (cookie ≠ []) (.protocolError "empty cookie extension")
  require (cookie.length ≤ 65535) overflow16
  pure (vectorBytes 2 cookie)

def parseCookie (b : Bytes) : Except Err Bytes := do
  let cookie ← parse bytes16 b
  require (cookie ≠ []) (decodeError "empty cookie extension")
  pure cookie

theorem parseCookie_marshal {cookie b : Bytes} (hb : marshalCookie cookie = .ok b) :
    parseCookie b = .ok cookie := by
  obtain ⟨_, hne, hb⟩ := bind_eq_ok.mp hb
  obtain ⟨_, hlength, hb⟩ := bind_eq_ok.mp hb
  cases hb
  rw [require_eq_ok] at hne hlength
  rw [parseCookie, bytes16,
    (reads_vector (Nat.lt_succ_of_le hlength)).parse_eq, ok_bind, require_of hne]
  rfl

def marshalConnectionID (connectionID : Bytes) : Except Err Bytes := do
  require (connectionID.length ≤ 255) overflow8
  pure (vectorBytes 1 connectionID)

def parseConnectionID (b : Bytes) : Except Err Bytes := parse bytes8 b

theorem parseConnectionID_marshal {connectionID b : Bytes}
    (hb : marshalConnectionID connectionID = .ok b) : parseConnectionID b = .ok connectionID := by
  obtain ⟨_, hlength, hb⟩ := bind_eq_ok.mp hb
  cases hb
  rw [require_eq_ok] at hlength
  exact (reads_vector (Nat.lt_succ_of_le hlength)).parse_eq

/-! ## Pre-shared keys -/

structure PskIdentityEntry where
  identity : Bytes
  obfuscatedAge : UInt32
  deriving DecidableEq, Repr

def PskIdentityEntry.bytes (entry : PskIdentityEntry) : Bytes :=
  vectorBytes 2 entry.identity ++ beBytes 4 entry.obfuscatedAge.toNat

def invalidOffer : Err := .protocolError "invalid pre_shared_key offer"

/-- The encoded identities before the binders, and the binders with their length. -/
def marshalClientPSKs (identities : List PskIdentityEntry) (binders : List Bytes) :
    Except Err Bytes := do
  require (identities ≠ [] ∧ identities.length = binders.length) invalidOffer
  require (∀ entry ∈ identities.zip binders, entry.1.identity ≠ [] ∧ 32 ≤ entry.2.length)
    invalidOffer
  require (∀ entry ∈ identities, entry.identity.length ≤ 65535) overflow16
  require ((identities.flatMap PskIdentityEntry.bytes).length ≤ 65535) overflow16
  let _ ← shortVectorsLength binders 0
  pure (vectorBytes 2 (identities.flatMap PskIdentityEntry.bytes) ++
    vectorBytes 2 (binders.flatMap (vectorBytes 1)))

def marshalClientPSK (identity : Bytes) (obfuscatedAge : UInt32) (binder : Bytes) :
    Except Err Bytes :=
  marshalClientPSKs [⟨identity, obfuscatedAge⟩] [binder]

def parsePskIdentity : WireParser PskIdentityEntry := do
  let identity ← bytes16
  let age ← u32
  if identity = [] then throw invalidOffer else pure ⟨identity, UInt32.ofNat age⟩

def parsePskBinder : WireParser Bytes := do
  let binder ← bytes8
  if binder.length < 32 then throw invalidOffer else pure binder

/-- The vectors of identities and of binders. -/
def parsePskVectors : WireParser (Bytes × Bytes) := do
  let identities ← bytes16
  let binders ← bytes16
  pure (identities, binders)

def parseClientPSKs (b : Bytes) : Except Err (List PskIdentityEntry × List Bytes) := do
  let (identities, binders) ← parse parsePskVectors b
  let identityList ← parse (items
    (parsePskIdentity.orError (decodeError "invalid pre_shared_key identity"))
      identities.length) identities
  let binderList ← parse (items
    (parsePskBinder.orError (decodeError "invalid pre_shared_key binder length"))
      binders.length) binders
  require (identityList ≠ [] ∧ identityList.length = binderList.length)
    (.protocolError "pre_shared_key identity and binder counts differ")
  pure (identityList, binderList)

/-- What a written offer is. -/
structure PskOffer (identities : List PskIdentityEntry) (binders : List Bytes) (b : Bytes) :
    Prop where
  nonempty : identities ≠ []
  counts : identities.length = binders.length
  identity : ∀ entry ∈ identities, entry.identity ≠ [] ∧ entry.identity.length ≤ 65535
  binder : ∀ binder ∈ binders, 32 ≤ binder.length ∧ binder.length ≤ 255
  identitiesFit : (identities.flatMap PskIdentityEntry.bytes).length ≤ 65535
  bindersFit : (binders.flatMap (vectorBytes 1)).length ≤ 65535
  bytes : b = vectorBytes 2 (identities.flatMap PskIdentityEntry.bytes) ++
    vectorBytes 2 (binders.flatMap (vectorBytes 1))

theorem marshalClientPSKs_eq_ok {identities : List PskIdentityEntry} {binders : List Bytes}
    (hb : marshalClientPSKs identities binders = .ok b) : PskOffer identities binders b := by
  simp only [marshalClientPSKs, bind_eq_ok] at hb
  obtain ⟨_, hcounts, _, hpairs, _, hlengths, _, hidentities, total, htotal, hb⟩ := hb
  rw [require_eq_ok] at hcounts hpairs hlengths hidentities
  obtain ⟨hshort, hlength, hmax⟩ := (shortVectorsLength_eq_ok_iff (by decide)).mp htotal
  have hbinders : (binders.flatMap (vectorBytes 1)).length ≤ 65535 := by omega
  refine ⟨hcounts.1, hcounts.2, ?_, ?_, hidentities, hbinders, (Except.ok.inj hb).symm⟩
  · intro entry hentry
    obtain ⟨i, hi, rfl⟩ := mem_iff_getElem.mp hentry
    have hpair := hpairs (identities[i], binders[i]) (mem_iff_getElem.mpr
      ⟨i, by simp [hcounts.2 ▸ hi, hi], by simp⟩)
    exact ⟨hpair.1, hlengths _ hentry⟩
  · intro binder hbinder
    obtain ⟨i, hi, rfl⟩ := mem_iff_getElem.mp hbinder
    have hi' : i < identities.length := hcounts.2 ▸ hi
    have hpair := hpairs (identities[i], binders[i]) (mem_iff_getElem.mpr
      ⟨i, by simp [hi, hi'], by simp⟩)
    exact ⟨hpair.2, Nat.le_of_lt_succ (hshort _ hbinder)⟩

theorem PskOffer.parse {identities : List PskIdentityEntry} {binders : List Bytes}
    (h : PskOffer identities binders b) : parseClientPSKs b = .ok (identities, binders) := by
  have hvectors : Reads parsePskVectors b
      (identities.flatMap PskIdentityEntry.bytes, binders.flatMap (vectorBytes 1)) := by
    rw [h.bytes]
    apply Reads.bind (reads_vector (Nat.lt_succ_of_le h.identitiesFit))
    exact (reads_vector (Nat.lt_succ_of_le h.bindersFit)).map fun raw =>
      (identities.flatMap PskIdentityEntry.bytes, raw)
  have hidentity : ∀ entry ∈ identities, Reads parsePskIdentity entry.bytes entry := by
    intro entry hentry
    obtain ⟨hne, hlength⟩ := h.identity entry hentry
    have hage : Reads u32 (beBytes 4 entry.obfuscatedAge.toNat)
      entry.obfuscatedAge.toNat := reads_uint entry.obfuscatedAge.toNat_lt
    apply Reads.bind (reads_vector (Nat.lt_succ_of_le hlength))
    intro rest
    rw [hage.bind_eq, if_neg hne, UInt32.ofNat_toNat]
    rfl
  have hbinder : ∀ binder ∈ binders, Reads parsePskBinder (vectorBytes 1 binder) binder := by
    intro binder hmem
    obtain ⟨hlong, hshort⟩ := h.binder binder hmem
    have hread : Reads bytes8 (vectorBytes 1 binder) binder :=
      reads_vector (Nat.lt_succ_of_le hshort)
    intro rest
    rw [parsePskBinder, hread.bind_eq, if_neg (by omega)]
    rfl
  have hcons : ∀ entry : PskIdentityEntry, entry.bytes ≠ [] := by
    simp [PskIdentityEntry.bytes, vectorBytes, beBytes]
  have hcons1 := vectorBytes_ne_nil
  have hidentities := parse_eq_ok (items_flatMap
    (fun entry hmem => (hidentity entry hmem).orError
      (decodeError "invalid pre_shared_key identity"))
    (fun entry _ => hcons entry) (length_le_length_flatMap identities hcons))
  have hbinders := parse_eq_ok (items_flatMap
    (fun binder hmem => (hbinder binder hmem).orError
      (decodeError "invalid pre_shared_key binder length"))
    (fun binder _ => hcons1 binder) (length_le_length_flatMap binders hcons1))
  rw [parseClientPSKs, hvectors.parse_eq, ok_bind]
  simp only [hidentities, hbinders, ok_bind]
  rw [require_of ⟨h.nonempty, h.counts⟩]
  rfl

def marshalPSKKeyExchangeModes : Bytes := [1, 1]

def parsePSKKeyExchangeModes (b : Bytes) : Except Err Bool := do
  require (2 ≤ b.length ∧ (b.headD 0).toNat = b.length - 1)
    (decodeError "invalid psk_key_exchange_modes extension length")
  pure (b.tail.contains 1)

/-! ## Versions, limits and flags -/

def clientSupportedVersions : Bytes := [2, 0xfe, 0xfc]

def parseClientSupportedVersions (b : Bytes) : Except Err Bool := do
  require (3 ≤ b.length ∧ (b.headD 0).toNat = b.length - 1 ∧ (b.length - 1) % 2 = 0)
    (decodeError "invalid supported_versions extension length")
  pure ((wordsOf b.tail).any fun version => version.toNat = versionDTLS13)

def parseRecordSizeLimit (raw : Bytes) (rejectAboveMaximum : Bool) : Except Err UInt16 := do
  require (raw.length = 2) (decodeError "invalid record_size_limit extension length")
  let limit := beNat raw
  require (minRecordSizeLimit ≤ limit ∧
      (rejectAboveMaximum = true → limit ≤ defaultRecordSizeLimit))
    (illegalParameter "invalid record_size_limit value")
  pure (UInt16.ofNat limit)

theorem parseRecordSizeLimit_beBytes {limit : UInt16} (hlow : minRecordSizeLimit ≤ limit.toNat) :
    parseRecordSizeLimit (beBytes 2 limit.toNat) false = .ok limit := by
  have hvalue : beNat (beBytes 2 limit.toNat) = limit.toNat := beNat_beBytes 2 limit.toNat_lt
  rw [parseRecordSizeLimit, require_of (beBytes_length _ _), ok_bind]
  simp only [hvalue]
  rw [require_of ⟨hlow, nofun⟩, ok_bind, UInt16.ofNat_toNat]
  rfl

def statusTypeOCSP : Nat := 1

def marshalStatusRequest : Bytes := [1, 0, 0, 0, 0]

def parseStatusFields : WireParser Nat := do
  let statusType ← u8
  let _ ← bytes16
  let _ ← bytes16
  pure statusType

def parseStatusRequest (raw : Bytes) : Except Err Bool := do
  let statusType ← parse parseStatusFields raw
  pure (statusType == statusTypeOCSP)

/-! ## Certificates -/

def certificateCompressionZlibOffer : Bytes := [2, 0, 1]

def marshalCertificateCompressionAlgorithms (algorithms : Option Bytes) : Except Err Bytes :=
  match algorithms with
  | none => .error (.protocolError "invalid certificate compression algorithm list")
  | some raw => do
    require (3 ≤ raw.length ∧ raw.length ≤ 255 ∧ (raw.headD 0).toNat = raw.length - 1 ∧
      (raw.headD 0) % 2 = 0) (.protocolError "invalid certificate compression algorithm list")
    pure raw

def parseCertificateCompressionAlgorithms (raw : Bytes) : Except Err Bytes := do
  require (3 ≤ raw.length ∧ (raw.headD 0).toNat = raw.length - 1 ∧ (raw.headD 0) % 2 = 0)
    (decodeError "invalid compress_certificate extension")
  pure raw

def parseCertificateTypes (raw : Bytes) : Except Err Bytes := do
  require (2 ≤ raw.length ∧ (raw.headD 0).toNat = raw.length - 1)
    (decodeError "invalid certificate type list")
  pure raw.tail

structure CachedInformationOffer where
  typ : Nat
  hash : Bytes
  deriving DecidableEq, Repr

/-- Fingerprints of the two kinds the library caches have the length of SHA-256. -/
def CachedInformationOffer.recognized (typ : Nat) : Bool := typ = 1 ∨ typ = 2

def parseCachedObject : WireParser CachedInformationOffer := do
  let typ ← u8
  let hash ← bytes8
  if hash = [] ∨ CachedInformationOffer.recognized typ ∧ hash.length ≠ 32 then
    throw (decodeError "invalid cached_info fingerprint length")
  else pure ⟨typ, hash⟩

def parseCachedInformationOffer (raw : Bytes) : Except Err (List CachedInformationOffer) := do
  let objects ← parse bytes16 raw
  require (objects ≠ []) (decodeError "empty cached_info offer")
  let offers ← parse (items
    (parseCachedObject.orError (decodeError "invalid cached_info fingerprint length"))
      objects.length) objects
  pure (offers.filter fun offer => CachedInformationOffer.recognized offer.typ)

/-- The authorities of the extension. Whether bytes are a distinguished name is
decided by the ASN.1 decoder, which is a parameter. -/
def forEachCertificateAuthority (distinguishedName : Bytes → Bool) (data : Bytes) :
    Except Err (List Bytes) := do
  let raw ← parse bytes16 data
  require (3 ≤ raw.length) (decodeError "invalid certificate_authorities extension length")
  let authority : WireParser Bytes := do
    let name ← bytes16
    if name = [] then
      throw (decodeError "empty certificate authority distinguished name")
    else if distinguishedName name then pure name
    else throw (alertError alertDecodeError
      (decodeError "malformed certificate authority distinguished name"))
  parse (items authority raw.length) raw

/-! ## Handshake metadata and Encrypted ClientHello -/

def maxHandshakeMetadata : Nat := 4096

def marshalHandshakeMetadata (data : Bytes) : Except Err Bytes := do
  require (data.length ≤ maxHandshakeMetadata)
    (.configError "handshake metadata exceeds 4096 bytes")
  pure (1 :: data)

def parseHandshakeMetadata : Bytes → Except Err Bytes
  | [] => .error (decodeError "invalid handshake metadata length")
  | version :: data => do
    require (data.length ≤ maxHandshakeMetadata)
      (decodeError "invalid handshake metadata length")
    require (version = 1) (illegalParameter "unsupported handshake metadata version")
    pure data

theorem parseHandshakeMetadata_marshal {data b : Bytes}
    (hb : marshalHandshakeMetadata data = .ok b) : parseHandshakeMetadata b = .ok data := by
  obtain ⟨_, hlength, hb⟩ := bind_eq_ok.mp hb
  cases hb
  rw [require_eq_ok] at hlength
  rw [parseHandshakeMetadata, require_of hlength, ok_bind, require_of rfl]
  rfl

def echOuterType : Nat := 0
def echInnerType : Nat := 1

def errMalformedECHExt : Err := .plain "dtls13: malformed encrypted_client_hello extension"
def errInvalidECHExt : Err := .plain "dtls13: invalid encrypted_client_hello extension"

/-- A parsed `encrypted_client_hello` extension: the marker of an inner hello,
or the sealed payload of an outer one. -/
inductive ECHExt where
  | inner
  | outer (kdfID aeadID configID : Nat) (enc payload : Bytes)
  deriving DecidableEq, Repr

def parseOuterECHFields : WireParser ECHExt := do
  let kdfID ← u16
  let aeadID ← u16
  let configID ← u8
  let enc ← bytes16
  let payload ← bytes16
  if payload = [] then throw errMalformedECHExt else pure (.outer kdfID aeadID configID enc payload)

/-- An empty value reads as the type of an outer hello, whose fields are missing. -/
def parseECHExt : Bytes → Except Err ECHExt
  | [] => .error errMalformedECHExt
  | typ :: fields =>
    if typ.toNat = echInnerType then
      if fields = [] then .ok .inner else .error errMalformedECHExt
    else if typ.toNat ≠ echOuterType then .error errInvalidECHExt
    else
      match parse parseOuterECHFields fields with
      | .ok outer => .ok outer
      | .error _ => .error errMalformedECHExt

end Dtls13
